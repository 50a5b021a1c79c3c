import Switchboard.Proofs.Link.Accounts
import Switchboard.Proofs.Link.Closing

/-!
# What an acknowledgement says

The frames that are handed over are the first of those that were queued, in the same order. A write
is acknowledged only after its frame was handed over, and fails only if the frame never will be;
both are known of every write once all threads have come to rest, to which any run can go on. Both
sides are told that the link is closed, once each, however many calls close it.
-/

namespace Switchboard.Passage

namespace Scene

/-- Whether the frame of a write was handed over. -/
def HasHanded (s : Scene) (r : AckRef) : Prop := ∃ frame, (frame, r) ∈ s.handed

variable {s : Scene} {r : AckRef}

private theorem Accounts.run (h : Accounts s) (acts : List Act) : Accounts (s.run acts) := by
  induction acts generalizing s with
  | nil => exact h
  | cons act rest ih => exact ih (h.after act)

private theorem Tidings.run (h : Tidings s) (acts : List Act) : Tidings (s.run acts) := by
  induction acts generalizing s with
  | nil => exact h
  | cons act rest ih => exact ih (h.after act)

/-! ### Acknowledgements that are over -/

private theorem acks_settleAs_of_isOver (hover : (s.acks r).isOver = true) (ack : AckRef)
    (outcome : Outcome Unit) (task : Task) : (s.settleAs ack outcome task).acks r = s.acks r := by
  by_cases hr : r = ack
  · subst hr
    exact (Function.update_self ..).trans (Ack.settle_of_isOver hover outcome)
  · exact Function.update_of_ne hr ..

/-- An acknowledgement that is over stays as it is. -/
theorem acks_after_of_isOver (hr : r < s.writes) (hover : (s.acks r).isOver = true) (act : Act) :
    (s.after act).acks r = s.acks r ∧ r < (s.after act).writes := by
  have hanswer : ∀ ack, (s.answer ack).acks r = s.acks r ∧ r < (s.answer ack).writes := fun ack =>
    ⟨Function.update_of_ne (Nat.ne_of_lt hr) .., Nat.lt_succ_of_lt hr⟩
  cases act with
  | settle =>
    simp only [after]
    split
    · exact ⟨acks_settleAs_of_isOver hover _ _ _, hr⟩
    · exact ⟨acks_settleAs_of_isOver hover _ _ _, hr⟩
    · exact ⟨rfl, hr⟩
  | leave =>
    simp only [after]
    split
    · refine ⟨?_, hr⟩
      simp only [abandon]
      split
      · exact Ack.lose_of_isOver hover
      · rfl
    · exact ⟨rfl, hr⟩
  | write t frame | queue t =>
    simp only [after]
    repeat' split
    all_goals first | exact ⟨rfl, hr⟩ | exact hanswer _
  | release => exact ⟨rfl, hr⟩
  | close t | publish t | tell t | heed | part | take | look | hand | finish =>
    simp only [after]
    repeat' split
    all_goals exact ⟨rfl, hr⟩

private theorem acks_run_of_isOver (hr : r < s.writes) (hover : (s.acks r).isOver = true)
    (acts : List Act) : (s.run acts).acks r = s.acks r := by
  induction acts generalizing s with
  | nil => rfl
  | cons act rest ih =>
    obtain ⟨hsame, hr'⟩ := acks_after_of_isOver hr hover act
    exact (ih hr' (hsame ▸ hover)).trans hsame

namespace Accounts

variable (h : Accounts s)
include h

/-- What is handed over is a beginning of what was queued. -/
theorem handed_prefix : s.handed <+: s.queued := by
  rw [h.queued_eq, List.append_assoc]
  exact List.prefix_append _ _

private theorem ack_of_hasHanded (hr : s.HasHanded r) :
    s.acks r = .settled (.ok ()) ∨ s.task = .handed r ∧ s.acks r = .waiting false := by
  obtain ⟨frame, hmem⟩ := hr
  exact h.ack_handed _ hmem

private theorem not_hasFailed_of_hasHanded (hr : s.HasHanded r) : ¬ (s.acks r).HasFailed := by
  rcases h.ack_of_hasHanded hr with hok | ⟨-, hwaiting⟩
  · rw [hok]
    rintro (hfailed | hfailed) <;> cases hfailed
  · rw [hwaiting]
    rintro (hfailed | hfailed) <;> cases hfailed

/-- A write that has failed is never handed over. -/
theorem not_hasHanded_run (hr : r < s.writes) (hfailed : (s.acks r).HasFailed) (more : List Act) :
    ¬ (s.run more).HasHanded r := by
  intro hhanded
  apply (h.run more).not_hasFailed_of_hasHanded hhanded
  rw [acks_run_of_isOver hr hfailed.isOver]
  exact hfailed

/-- A write that is acknowledged was handed over. -/
theorem hasHanded_of_ack (hr : r < s.writes) (hok : s.acks r = .settled (.ok ())) :
    s.HasHanded r := by
  by_contra hnot
  have hqueued : ∀ p ∈ s.queued, p.2 ≠ r := by
    rintro p hp rfl
    rcases h.mem_queued_iff.mp hp with hhanded | hrefused | hpending
    · exact hnot ⟨p.1, hhanded⟩
    · rcases h.ack_refused p hrefused with hfailed | ⟨-, hwaiting⟩
      · rw [hok] at hfailed
        rcases hfailed with hfailed | hfailed <;> cases hfailed
      · rw [hok] at hwaiting
        cases hwaiting
    · rw [h.ack_pending p hpending] at hok
      cases hok
  rw [h.ack_unqueued r hr hqueued] at hok
  cases hok

/-- A task that has nothing to do has nothing to decide and nothing to settle. -/
theorem settled_of_isDone (hdone : s.IsDone) : s.pending = [] ∧ s.task.settling? = none := by
  rcases hdone with htask | ⟨htask, hlane, -⟩
  · rw [pending, htask, h.lane_eq_nil htask]
    exact ⟨rfl, rfl⟩
  · rw [pending, htask, hlane]
    exact ⟨rfl, rfl⟩

/-- With nothing to decide and nothing to settle, every write is acknowledged or has failed. -/
theorem ack_of_settled (hpending : s.pending = []) (hsettling : s.task.settling? = none)
    (hr : r < s.writes) :
    s.HasHanded r ∧ s.acks r = .settled (.ok ()) ∨ ¬ s.HasHanded r ∧ (s.acks r).HasFailed := by
  by_cases hhanded : s.HasHanded r
  · obtain ⟨frame, hmem⟩ := hhanded
    exact .inl ⟨⟨frame, hmem⟩, h.ack_handed_of_settled hsettling hmem⟩
  · refine .inr ⟨hhanded, ?_⟩
    by_cases hqueued : ∃ p ∈ s.queued, p.2 = r
    · obtain ⟨p, hp, rfl⟩ := hqueued
      rcases h.mem_queued_iff.mp hp with hp | hp | hp
      · exact absurd ⟨p.1, hp⟩ hhanded
      · exact h.ack_refused_of_settled hsettling hp
      · rw [hpending] at hp
        cases hp
    · exact .inl (h.ack_unqueued r hr fun p hp heq => hqueued ⟨p, hp, heq⟩)

end Accounts

/-! ### Who is told -/

namespace Tidings

variable (h : Tidings s)
include h

/-- The client's side is told first, and the server's side next. -/
theorem told_cases : s.told = [] ∨ s.told = [.client] ∨ s.told = [.client, .server] := by
  cases hopen : s.link.isOpen
  · rcases (h.of_closed hopen).2 with ⟨t, hsome⟩ | ⟨-, hdone⟩
    · obtain ⟨known, hknown⟩ := Option.isSome_iff_exists.mp hsome
      have htold : s.told = known.2 := congrArg Prod.snd (h.progress t known hknown)
      rw [htold]
      cases hstage : s.stage t with
      | idle | writing _ =>
        rw [hstage] at hknown
        cases hknown
      | publishing =>
        rw [hstage] at hknown
        cases hknown
        exact .inl rfl
      | telling side =>
        rw [hstage] at hknown
        cases side <;> cases hknown
        · exact .inl rfl
        · exact .inr (.inl rfl)
    · exact .inr (.inr hdone)
  · exact .inl (h.of_open hopen).2.2.1

private theorem count_told_le (side : Side) : s.told.count side ≤ 1 := by
  rcases h.told_cases with htold | htold | htold <;> rw [htold] <;> cases side <;> decide

/-- Once every call is over, either the link was not closed and nobody was told of anything, or it
was and everybody was. -/
theorem told_of_idle (hidle : ∀ t, s.stage t = .idle) :
    s.closes = 0 ∧ s.told = [] ∨ 0 < s.closes ∧ s.told = [.client, .server] := by
  cases hopen : s.link.isOpen
  · obtain ⟨hcloses, ⟨t, hsome⟩ | ⟨-, htold⟩⟩ := h.of_closed hopen
    · rw [hidle t] at hsome
      cases hsome
    · exact .inr ⟨hcloses, htold⟩
  · obtain ⟨-, -, htold, hcloses⟩ := h.of_open hopen
    exact .inl ⟨hcloses, htold⟩

end Tidings

/-! ### Coming to rest -/

variable {t : CallId}

/-- A thread that does not act stays where it is. -/
theorem stage_after_of_ne {act : Act} (h : act.call? ≠ some t) :
    (s.after act).stage t = s.stage t := by
  have hmove : ∀ (s : Scene) u stage, u ≠ t → (s.move u stage).stage t = s.stage t :=
    fun s u stage hu => stage_move_of_ne s stage (Ne.symm hu)
  cases act with
  | write u frame | queue u | close u | publish u | tell u =>
    have hu : u ≠ t := fun heq => h (congrArg some heq)
    simp only [after]
    repeat' split
    all_goals first | rfl | exact hmove s u _ hu
  | release | heed | part | take | look | hand | settle | finish | leave =>
    simp only [after]
    repeat' split
    all_goals rfl

private theorem stage_run_of_forall_ne {acts : List Act} (h : ∀ act ∈ acts, act.call? ≠ some t) :
    (s.run acts).stage t = s.stage t := by
  induction acts generalizing s with
  | nil => rfl
  | cons act rest ih =>
    exact (ih fun a ha => h a (List.mem_cons_of_mem _ ha)).trans
      (stage_after_of_ne (h act List.mem_cons_self))

/-- A call comes to its end, wherever it is. -/
theorem stage_run_rest (s : Scene) (t : CallId) : (s.run (Act.rest t)).stage t = .idle := by
  cases hstage : s.stage t with
  | idle => simp [run, Act.rest, after, hstage]
  | writing frame =>
    by_cases htask : s.task = .gone <;>
      simp [run, Act.rest, after, move, answer, put, setLane, hstage, htask]
  | publishing => simp [run, Act.rest, after, move, hstage]
  | telling side => cases side <;> simp [run, Act.rest, after, move, hstage]

/-- All calls come to their end. -/
theorem exists_idle {calls : List CallId} (h : ∀ t ∉ calls, s.stage t = .idle) :
    ∃ more, (∀ act ∈ more, act.isStep = true) ∧ ∀ t, (s.run more).stage t = .idle := by
  induction calls generalizing s with
  | nil => exact ⟨[], by simp, fun t => h t (by simp)⟩
  | cons t calls ih =>
    obtain ⟨more, hmore, hidle⟩ := ih (s := s.run (Act.rest t)) fun u hu => by
      by_cases hut : u = t
      · rw [hut]
        exact stage_run_rest s t
      · rw [stage_run_of_forall_ne (by simp [Act.rest, Act.call?, Ne.symm hut])]
        exact h u (by simp [hut, hu])
    refine ⟨Act.rest t ++ more, fun act hact => ?_, fun u => ?_⟩
    · rcases List.mem_append.mp hact with hact | hact
      · simp only [Act.rest, List.mem_cons, List.not_mem_nil, or_false] at hact
        rcases hact with rfl | rfl | rfl | rfl <;> rfl
      · exact hmore act hact
    · rw [run_append]
      exact hidle u

/-- Whether the task can come to have nothing to do by its own acts. -/
def CanFinish (s : Scene) : Prop :=
  ∃ more : List Act, (∀ act ∈ more, act.isTask = true) ∧ (s.run more).IsDone

private theorem IsDone.canFinish (h : s.IsDone) : s.CanFinish := ⟨[], by simp, h⟩

private theorem canFinish_of_run (acts : List Act) (hacts : ∀ act ∈ acts, act.isTask = true)
    (h : (s.run acts).CanFinish) : s.CanFinish := by
  obtain ⟨more, hmore, hdone⟩ := h
  refine ⟨acts ++ more, fun act hact => ?_, ?_⟩
  · rcases List.mem_append.mp hact with hact | hact
    · exact hacts act hact
    · exact hmore act hact
  · rw [run_append]
    exact hdone

/-- A task that refuses what is on the lane comes to its end. -/
theorem canFinish_of_draining (htask : s.task = .draining) : s.CanFinish := by
  obtain ⟨htask', hlane, -⟩ := run_drain htask rfl
  refine canFinish_of_run (s.lane.flatMap fun _ => [.take, .settle]) ?_
    (canFinish_of_run [.finish, .leave] (by simp [Act.isTask]) ?_)
  · intro act hact
    obtain ⟨_, -, hact⟩ := List.mem_flatMap.mp hact
    simp only [List.mem_cons, List.not_mem_nil, or_false] at hact
    rcases hact with rfl | rfl <;> rfl
  · rw [run_end htask' hlane]
    exact IsDone.canFinish (.inl rfl)

/-- Whether the task has no frame of which it is to decide. -/
def HasDecided (s : Scene) : Prop :=
  s.task = .waiting ∨ s.task = .draining ∨ s.task = .leaving ∨ s.task = .gone

/-- A task that has taken a frame decides what becomes of it, and of nothing else. -/
theorem run_decide (s : Scene) :
    (s.run [.look, .hand, .settle]).HasDecided ∧ (s.run [.look, .hand, .settle]).lane = s.lane := by
  unfold HasDecided
  cases htask : s.task with
  | taken parcel =>
    cases hopen : s.link.isOpen <;> simp [run, after, refuse, settleAs, lane, htask, hopen]
  | waiting | handing _ | handed _ | refusing _ | draining | leaving | gone =>
    simp [run, after, settleAs, lane, htask]

/-- A task that has decided comes to its end once it has learnt that the link is closed. -/
theorem HasDecided.canFinish (h : s.HasDecided)
    (hwaiting : s.task = .waiting → s.isPublished = false → s.CanFinish) : s.CanFinish := by
  rcases h with htask | htask | htask | htask
  · cases hpublished : s.isPublished
    · exact hwaiting htask hpublished
    · apply canFinish_of_run [.heed] (by simp [Act.isTask])
      exact canFinish_of_draining (by simp [run, after, htask, hpublished])
  · exact canFinish_of_draining htask
  · apply canFinish_of_run [.leave] (by simp [Act.isTask])
    exact IsDone.canFinish (.inl (by simp [run, after, abandon, htask]))
  · exact IsDone.canFinish (.inl htask)

/-- The task comes to have nothing to do. The induction is on the frames on the lane, each of which
is decided in its turn. -/
theorem canFinish (s : Scene) : s.CanFinish := by
  induction hparcels : s.lane generalizing s with
  | nil =>
    obtain ⟨hdecided, hlane⟩ := s.run_decide
    refine canFinish_of_run [.look, .hand, .settle] (by simp [Act.isTask]) (hdecided.canFinish ?_)
    exact fun htask hpublished =>
      IsDone.canFinish (.inr ⟨htask, hlane.trans hparcels, hpublished⟩)
  | cons parcel rest ih =>
    obtain ⟨hdecided, hlane⟩ := s.run_decide
    refine canFinish_of_run [.look, .hand, .settle] (by simp [Act.isTask]) (hdecided.canFinish ?_)
    intro htask _
    refine canFinish_of_run [.take] (by simp [Act.isTask]) (ih _ ?_)
    simp only [run, List.foldl_cons, List.foldl_nil] at htask hlane ⊢
    rw [after, htask, hlane, hparcels]
    exact lane_setLane _ _

/-- Every run can go on to where all threads are at rest, without new calls. -/
theorem exists_atRest (calls : List CallId) (h : ∀ t ∉ calls, s.stage t = .idle) :
    ∃ more, (∀ act ∈ more, act.isStep = true) ∧ (s.run more).AtRest := by
  obtain ⟨first, hfirst, hidle⟩ := exists_idle h
  obtain ⟨more, hmore, hdone⟩ := (s.run first).canFinish
  refine ⟨first ++ more, fun act hact => ?_, fun t => ?_, ?_⟩
  · rcases List.mem_append.mp hact with hact | hact
    · exact hfirst act hact
    · exact Act.isStep_of_isTask (hmore act hact)
  · have hother : ∀ act ∈ more, act.call? ≠ some t := fun act hact => by
      rw [Act.call?_of_isTask (hmore act hact)]
      rintro ⟨⟩
    rw [run_append, stage_run_of_forall_ne hother]
    exact hidle t
  · rw [run_append]
    exact hdone

end Scene

/-- After every run of threads that write frames at one end of a link and close it from either end,
and of the task that carries the frames across: what is handed over are the first of the frames that
were queued, in their order, and each once. A write is acknowledged only after its frame was handed
over, and what is handed over is acknowledged next. A write that has failed, or of which nobody can
tell, is never handed over, whatever happens later. No side is told twice that the link is closed.
Once all are at rest nothing is left to wait for: a write is acknowledged just if its frame was
handed over, and has failed just if it never will be, and both sides have been told once if anybody
closed the link. Every run can go on to rest without new calls. -/
theorem acknowledged_iff_handed (client server : ConnectionRef × Handler) (side : Side)
    (acts : List Act) :
    let s := Scene.ofActs client server side acts
    (s.handed <+: s.queued ∧ (s.queued.map Prod.snd).Nodup) ∧
    (∀ r < s.writes, (s.acks r = .settled (.ok ()) → s.HasHanded r) ∧
      ((s.acks r).HasFailed → ∀ more, ¬ (s.run more).HasHanded r)) ∧
    (∀ r, s.HasHanded r → s.acks r = .settled (.ok ()) ∨ s.task = .handed r) ∧
    (∀ side, s.told.count side ≤ 1) ∧
    (s.AtRest →
      (∀ r < s.writes, (s.acks r).isOver = true ∧
        (s.acks r = .settled (.ok ()) ↔ s.HasHanded r) ∧
        ((s.acks r).HasFailed ↔ ∀ more, ¬ (s.run more).HasHanded r)) ∧
      ∀ side, s.told.count side = if s.closes = 0 then 0 else 1) ∧
    ∃ more, (∀ act ∈ more, act.isStep = true) ∧ (s.run more).AtRest := by
  intro s
  have h : s.Accounts := (Scene.accounts_start client server side).run acts
  have htidings : s.Tidings := (Scene.tidings_start client server side).run acts
  refine ⟨⟨h.handed_prefix, h.nodup⟩,
    fun r hr => ⟨h.hasHanded_of_ack hr, h.not_hasHanded_run hr⟩,
    fun r hr => (h.ack_of_hasHanded hr).imp_right And.left, htidings.count_told_le,
    fun hrest => ⟨fun r hr => ?_, fun side => ?_⟩, ?_⟩
  · obtain ⟨hpending, hsettling⟩ := h.settled_of_isDone hrest.2
    rcases h.ack_of_settled hpending hsettling hr with ⟨hhanded, hok⟩ | ⟨hnot, hfailed⟩
    · refine ⟨by rw [hok]; rfl, iff_of_true hok hhanded, iff_of_false ?_ ?_⟩
      · exact h.not_hasFailed_of_hasHanded hhanded
      · exact fun hnever => hnever [] hhanded
    · refine ⟨hfailed.isOver, iff_of_false (fun hok => hnot (h.hasHanded_of_ack hr hok)) hnot,
        iff_of_true hfailed (h.not_hasHanded_run hr hfailed)⟩
  · rcases htidings.told_of_idle hrest.1 with ⟨hcloses, htold⟩ | ⟨hcloses, htold⟩
    · rw [htold, if_pos hcloses]
      rfl
    · rw [htold, if_neg (Nat.ne_of_gt hcloses)]
      cases side <;> decide
  · refine Scene.exists_atRest (acts.filterMap Act.call?) fun t ht => ?_
    refine Scene.stage_run_of_forall_ne fun act hact hcall => ht ?_
    exact List.mem_filterMap.mpr ⟨act, hact, hcall⟩

/-- One frame crosses. While the task looks at the next one the link is closed, and the frame is
refused; a third comes to the lane when the task has found nothing there, and is lost; a fourth is
refused at once. The link is closed once more, and each side is told once. -/
theorem acknowledged_while_closing :
    let acts : List Act := [.write 0 [1], .queue 0, .write 0 [2], .queue 0, .write 1 [3], .take,
      .look, .close 2, .hand, .settle, .take, .look, .publish 2, .close 3, .settle, .finish,
      .queue 1, .leave, .tell 2, .write 1 [4], .tell 2]
    ∃ s, s = Scene.ofActs (0, .observer) (1, .commands) .client acts ∧ s.AtRest ∧ s.writes = 4 ∧
      s.queued = [([1], 0), ([2], 1), ([3], 2)] ∧ s.handed = [([1], 0)] ∧
      s.acks 0 = .settled (.ok ()) ∧ s.acks 1 = .settled (.error .connectionClosed) ∧
      s.acks 2 = .lost ∧ s.acks 3 = .settled (.error .connectionClosed) ∧
      (∀ r < 4, r ≠ 0 → ∀ more, ¬ (s.run more).HasHanded r) ∧ s.closes = 2 ∧
      ∀ side, s.told.count side = 1 := by
  intro acts
  have hall := acknowledged_iff_handed (0, .observer) (1, .commands) .client acts
  obtain ⟨s, hs⟩ : ∃ s, s = Scene.ofActs (0, .observer) (1, .commands) .client acts := ⟨_, rfl⟩
  rw [← hs] at hall
  obtain ⟨-, -, -, -, hat, -⟩ := hall
  have hidle : ∀ t, s.stage t = .idle := by
    intro t
    by_cases ht : t < 4
    · revert t
      rw [hs]
      decide +kernel
    · rw [hs]
      have hcalls : ∀ act ∈ acts, act.call?.getD 0 < 4 := by decide
      refine Scene.stage_run_of_forall_ne fun act hact hcall => ht ?_
      have hlt := hcalls act hact
      rwa [hcall] at hlt
  have hrest : s.AtRest := ⟨hidle, .inl (by rw [hs]; decide +kernel)⟩
  obtain ⟨hacks, htold⟩ := hat hrest
  have hwrites : s.writes = 4 := by rw [hs]; decide +kernel
  have hcloses : s.closes = 2 := by rw [hs]; decide +kernel
  have hfirst : s.acks 1 = .settled (.error .connectionClosed) := by rw [hs]; rfl
  have hsecond : s.acks 2 = .lost := by rw [hs]; rfl
  have hthird : s.acks 3 = .settled (.error .connectionClosed) := by rw [hs]; rfl
  refine ⟨s, hs, hrest, hwrites, by rw [hs]; decide +kernel, by rw [hs]; decide +kernel,
    by rw [hs]; rfl, hfirst, hsecond, hthird, fun r hr hne => ?_, hcloses, fun side => ?_⟩
  · refine (hacks r (hwrites ▸ hr)).2.2.mp ?_
    have hothers : ∀ n : Nat, n < 4 → n ≠ 0 → n = 1 ∨ n = 2 ∨ n = 3 := by omega
    obtain rfl | rfl | rfl := hothers r hr hne
    · exact .inl hfirst
    · exact .inr hsecond
    · exact .inl hthird
  · rw [htold side, hcloses]
    rfl

end Switchboard.Passage
