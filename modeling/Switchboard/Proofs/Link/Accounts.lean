import Switchboard.Proofs.Link.Scene

/-!
# The frames that were written and their acknowledgements

The accounts of a scene are in order when the frames that were queued are those handed over, those
refused, and those yet to be decided, one after the other, and when every acknowledgement says which
of these its frame is. Every act leaves the accounts in order.
-/

namespace Switchboard

namespace Ack

private theorem HasFailed.settle {ack : Ack} (h : ack.HasFailed) (outcome : Outcome Unit) :
    (ack.settle outcome).HasFailed := by
  rcases h with rfl | rfl
  · exact .inl rfl
  · exact .inr rfl

/-- A send that is over is not acknowledged again. -/
theorem settle_of_isOver {ack : Ack} (h : ack.isOver = true) (outcome : Outcome Unit) :
    ack.settle outcome = ack := by
  cases ack with
  | waiting _ => cases h
  | _ => rfl

/-- A send that is over is not lost any more. -/
theorem lose_of_isOver {ack : Ack} (h : ack.isOver = true) : ack.lose = ack := by
  cases ack with
  | waiting _ => cases h
  | _ => rfl

/-- A send that failed is over. -/
theorem HasFailed.isOver {ack : Ack} (h : ack.HasFailed) : ack.isOver = true := by
  rcases h with rfl | rfl <;> rfl

end Ack

namespace Passage

namespace Scene

/-- The frames of which nothing is decided. -/
def pending (s : Scene) : List Parcel := s.task.held ++ s.lane

/-- Where every frame is that was queued, and what its acknowledgement says. -/
structure Accounts (s : Scene) : Prop where
  queued_eq : s.queued = s.handed ++ s.refused ++ s.pending
  /-- Once a frame is refused none is handed over. -/
  refused_eq_nil : s.task.isCarrying = true → s.refused = []
  lane_eq_nil : s.task = .gone → s.lane = []
  nodup : (s.queued.map Prod.snd).Nodup
  lt_writes : ∀ p ∈ s.queued, p.2 < s.writes
  settling : ∀ ack, s.task.settling? = some ack → ∃ p ∈ s.handed ++ s.refused, p.2 = ack
  ack_handed : ∀ p ∈ s.handed, s.acks p.2 = .settled (.ok ()) ∨
    s.task = .handed p.2 ∧ s.acks p.2 = .waiting false
  ack_refused : ∀ p ∈ s.refused, (s.acks p.2).HasFailed ∨
    s.task = .refusing p.2 ∧ s.acks p.2 = .waiting false
  ack_pending : ∀ p ∈ s.pending, s.acks p.2 = .waiting false
  ack_unqueued : ∀ r < s.writes, (∀ p ∈ s.queued, p.2 ≠ r) →
    s.acks r = .settled (.error .connectionClosed)

/-- A link that nobody has written to has its accounts in order. -/
theorem accounts_start (client server : ConnectionRef × Handler) (side : Side) :
    Accounts { link := { client, server }, side } where
  queued_eq := by cases side <;> rfl
  refused_eq_nil := fun _ => rfl
  lane_eq_nil := fun _ => by cases side <;> rfl
  nodup := List.nodup_nil
  lt_writes := by simp
  settling := by rintro _ ⟨⟩
  ack_handed := by simp
  ack_refused := by simp
  ack_pending := by cases side <;> rintro _ ⟨⟩
  ack_unqueued := fun _ hr => absurd hr (Nat.not_lt_zero _)

variable {s : Scene}

namespace Accounts

variable (h : Accounts s)
include h

/-- A scene of the same frames and acknowledgements has the same accounts. -/
theorem congr {s' : Scene} (htask : s'.task = s.task) (hlane : s'.lane = s.lane)
    (hwrites : s'.writes = s.writes) (hacks : s'.acks = s.acks) (hqueued : s'.queued = s.queued)
    (hhanded : s'.handed = s.handed) (hrefused : s'.refused = s.refused) : Accounts s' := by
  have hpending : s'.pending = s.pending := by rw [pending, htask, hlane, pending]
  obtain ⟨h1, h2, h3, h4, h5, h6, h7, h8, h9, h10⟩ := h
  constructor <;>
    simpa only [htask, hlane, hwrites, hacks, hqueued, hhanded, hrefused, hpending]

/-- A frame that is decided has another acknowledgement than one that is not. -/
theorem ne_of_decided {p q : Parcel} (hp : p ∈ s.handed ++ s.refused) (hq : q ∈ s.pending) :
    p.2 ≠ q.2 := by
  have hnodup := h.nodup
  rw [h.queued_eq, List.map_append, List.nodup_append] at hnodup
  exact hnodup.2.2 p.2 (List.mem_map_of_mem hp) q.2 (List.mem_map_of_mem hq)

/-- A parcel that was queued was handed over or refused or is still in the lane. -/
theorem mem_queued_iff {p : Parcel} :
    p ∈ s.queued ↔ p ∈ s.handed ∨ p ∈ s.refused ∨ p ∈ s.pending := by
  rw [h.queued_eq, List.mem_append, List.mem_append, or_assoc]

/-- A new acknowledgement leaves those of the frames that were queued. -/
theorem acks_answer {p : Parcel} (hp : p ∈ s.queued) (ack : Ack) :
    (s.answer ack).acks p.2 = s.acks p.2 :=
  Function.update_of_ne (Nat.ne_of_lt (h.lt_writes p hp)) ..

/-- A write that is refused leaves the others as they are. -/
theorem answer : Accounts (s.answer (.settled (.error .connectionClosed))) := by
  refine ⟨h.queued_eq, h.refused_eq_nil, h.lane_eq_nil, h.nodup,
    fun p hp => Nat.lt_succ_of_lt (h.lt_writes p hp), h.settling, fun p hp => ?_, fun p hp => ?_,
    fun p hp => ?_, fun r hr hne => ?_⟩
  · rw [h.acks_answer (h.mem_queued_iff.mpr (.inl hp))]
    exact h.ack_handed p hp
  · rw [h.acks_answer (h.mem_queued_iff.mpr (.inr (.inl hp)))]
    exact h.ack_refused p hp
  · rw [h.acks_answer (h.mem_queued_iff.mpr (.inr (.inr hp)))]
    exact h.ack_pending p hp
  · by_cases hnew : r = s.writes
    · rw [hnew]
      exact Function.update_self ..
    · have hlt : r < s.writes := Nat.lt_of_le_of_ne (Nat.le_of_lt_succ hr) hnew
      exact (Function.update_of_ne hnew ..).trans (h.ack_unqueued r hlt hne)

/-- A frame that is put on the lane is not decided. -/
theorem put (htask : s.task ≠ .gone) (frame : Bytes) : Accounts (s.put frame) := by
  have hlane : (s.put frame).lane = s.lane ++ [(frame, s.writes)] := s.lane_setLane _
  have hpending : (s.put frame).pending = s.pending ++ [(frame, s.writes)] := by
    change s.task.held ++ (s.put frame).lane = _
    rw [hlane, pending, List.append_assoc]
  have hqueued : (s.put frame).queued = s.queued ++ [(frame, s.writes)] := rfl
  have hold : ∀ p ∈ s.queued, (s.put frame).acks p.2 = s.acks p.2 := fun p hp =>
    h.acks_answer hp (.waiting false)
  refine ⟨?_, h.refused_eq_nil, fun hgone => absurd hgone htask, ?_, fun p hp => ?_, h.settling,
    fun p hp => ?_, fun p hp => ?_, fun p hp => ?_, fun r hr hne => ?_⟩
  · rw [hqueued, hpending, h.queued_eq, List.append_assoc]
    rfl
  · rw [hqueued, List.map_append, List.nodup_append]
    refine ⟨h.nodup, by simp, ?_⟩
    intro r hr r' hr'
    obtain ⟨p, hp, rfl⟩ := List.mem_map.mp hr
    rw [List.mem_singleton.mp hr']
    exact Nat.ne_of_lt (h.lt_writes p hp)
  · rcases List.mem_append.mp (hqueued ▸ hp) with hp | hp
    · exact Nat.lt_succ_of_lt (h.lt_writes p hp)
    · rw [List.mem_singleton.mp hp]
      exact Nat.lt_succ_self _
  · rw [hold p (h.mem_queued_iff.mpr (.inl hp))]
    exact h.ack_handed p hp
  · rw [hold p (h.mem_queued_iff.mpr (.inr (.inl hp)))]
    exact h.ack_refused p hp
  · rcases List.mem_append.mp (hpending ▸ hp) with hp | hp
    · rw [hold p (h.mem_queued_iff.mpr (.inr (.inr hp)))]
      exact h.ack_pending p hp
    · rw [List.mem_singleton.mp hp]
      exact Function.update_self ..
  · have hnew : r ≠ s.writes := fun heq => hne (frame, s.writes) (by simp [hqueued]) heq.symm
    have hlt : r < s.writes := Nat.lt_of_le_of_ne (Nat.le_of_lt_succ hr) hnew
    refine (Function.update_of_ne hnew ..).trans (h.ack_unqueued r hlt fun p hp => ?_)
    exact hne p (by simp [hqueued, hp])

/-- With nothing to settle, all that was handed over is acknowledged. -/
theorem ack_handed_of_settled (hsettling : s.task.settling? = none) {p : Parcel}
    (hp : p ∈ s.handed) : s.acks p.2 = .settled (.ok ()) := by
  rcases h.ack_handed p hp with hok | ⟨htask, -⟩
  · exact hok
  · rw [htask] at hsettling
    cases hsettling

/-- With nothing to settle, all that was refused has failed. -/
theorem ack_refused_of_settled (hsettling : s.task.settling? = none) {p : Parcel}
    (hp : p ∈ s.refused) : (s.acks p.2).HasFailed := by
  rcases h.ack_refused p hp with hfailed | ⟨htask, -⟩
  · exact hfailed
  · rw [htask] at hsettling
    cases hsettling

/-- The task goes on with the same frames undecided, and with nothing to settle. -/
theorem go (link : Link) (task : Task) (hpending : pending { s with link, task } = s.pending)
    (hbefore : s.task.settling? = none) (hafter : task.settling? = none)
    (hcarrying : task.isCarrying = true → s.task.isCarrying = true) (hgone : task ≠ .gone) :
    Accounts { s with link, task } where
  queued_eq := hpending ▸ h.queued_eq
  refused_eq_nil := fun hc => h.refused_eq_nil (hcarrying hc)
  lane_eq_nil := fun hg => absurd hg hgone
  nodup := h.nodup
  lt_writes := h.lt_writes
  settling := fun _ hack => by
    rw [hafter] at hack
    cases hack
  ack_handed := fun _ hp => .inl (h.ack_handed_of_settled hbefore hp)
  ack_refused := fun _ hp => .inl (h.ack_refused_of_settled hbefore hp)
  ack_pending := hpending ▸ h.ack_pending
  ack_unqueued := h.ack_unqueued

private theorem heed : Accounts (s.after .heed) := by
  simp only [Scene.after]
  split
  · next htask =>
    split
    · exact h.go s.link .draining (by simp only [pending, htask]; rfl) (by rw [htask]; rfl) rfl
        (by rintro ⟨⟩) (by rintro ⟨⟩)
    · exact h
  · exact h

private theorem part : Accounts (s.after .part) := by
  simp only [Scene.after]
  split
  · next htask _ =>
    split
    · exact h
    · exact h.go s.link .draining (by simp only [pending, htask]; rfl) (by rw [htask]; rfl) rfl
        (by rintro ⟨⟩) (by rintro ⟨⟩)
  · exact h

private theorem finish : Accounts (s.after .finish) := by
  simp only [Scene.after]
  split
  · next htask _ =>
    exact h.go s.link .leaving (by simp only [pending, htask]; rfl) (by rw [htask]; rfl) rfl
      (by rintro ⟨⟩) (by rintro ⟨⟩)
  · exact h

/-- The first of the frames that are undecided is refused. -/
theorem refuse (link : Link) (parcel : Parcel)
    (hpending : s.pending = parcel :: lane { s with link }) (hsettling : s.task.settling? = none) :
    Accounts (Scene.refuse { s with link } parcel) := by
  have hrefused : (Scene.refuse { s with link } parcel).refused = s.refused ++ [parcel] := rfl
  refine ⟨?_, by rintro ⟨⟩, by rintro ⟨⟩, h.nodup, h.lt_writes, fun ack hack => ?_,
    fun p hp => .inl (h.ack_handed_of_settled hsettling hp), fun p hp => ?_, fun p hp => ?_,
    h.ack_unqueued⟩
  · refine h.queued_eq.trans ?_
    rw [hpending]
    change _ = s.handed ++ (s.refused ++ [parcel]) ++ lane { s with link }
    simp
  · cases hack
    exact ⟨parcel, by simp [hrefused], rfl⟩
  · rcases List.mem_append.mp (hrefused ▸ hp) with hp | hp
    · exact .inl (h.ack_refused_of_settled hsettling hp)
    · rw [List.mem_singleton.mp hp]
      exact .inr ⟨rfl, h.ack_pending parcel (by simp [hpending])⟩
  · refine h.ack_pending p ?_
    rw [hpending]
    exact List.mem_cons_of_mem _ hp

private theorem take : Accounts (s.after .take) := by
  have hrest : ∀ rest task,
      lane { s with link := s.link.setLane s.side rest, task } = rest := fun rest _ =>
    s.lane_setLane rest
  simp only [Scene.after]
  split
  · next parcel rest htask hlane =>
    refine h.go (s.link.setLane s.side rest) (.taken parcel) ?_ (by rw [htask]; rfl) rfl
      (fun _ => by rw [htask]; rfl) (by rintro ⟨⟩)
    rw [pending, hrest, pending, htask, hlane]
    rfl
  · next parcel rest htask hlane =>
    refine h.refuse (s.link.setLane s.side rest) parcel ?_ (by rw [htask]; rfl)
    rw [hrest, pending, htask, hlane]
    rfl
  · exact h

private theorem look : Accounts (s.after .look) := by
  simp only [Scene.after]
  split
  · next parcel htask =>
    have hpending : s.pending = parcel :: s.lane := by rw [pending, htask]; rfl
    split
    · exact h.go s.link (.handing parcel) hpending.symm (by rw [htask]; rfl) rfl
        (fun _ => by rw [htask]; rfl) (by rintro ⟨⟩)
    · exact h.refuse s.link parcel hpending (by rw [htask]; rfl)
  · exact h

/-- The first of the frames that are undecided is handed over. -/
theorem hand : Accounts (s.after .hand) := by
  simp only [Scene.after]
  split
  · next parcel htask =>
    have hpending : s.pending = parcel :: s.lane := by rw [pending, htask]; rfl
    have hsettling : s.task.settling? = none := by rw [htask]; rfl
    have hrefused : s.refused = [] := h.refused_eq_nil (by rw [htask]; rfl)
    refine ⟨?_, fun _ => hrefused, by rintro ⟨⟩, h.nodup, h.lt_writes, fun ack hack => ?_,
      fun p hp => ?_, fun p hp => .inl (h.ack_refused_of_settled hsettling hp), fun p hp => ?_,
      h.ack_unqueued⟩
    · change s.queued = s.handed ++ [parcel] ++ s.refused ++ s.lane
      rw [h.queued_eq, hpending, hrefused]
      simp
    · cases hack
      exact ⟨parcel, by simp, rfl⟩
    · rcases List.mem_append.mp hp with hp | hp
      · exact .inl (h.ack_handed_of_settled hsettling hp)
      · rw [List.mem_singleton.mp hp]
        exact .inr ⟨rfl, h.ack_pending parcel (by simp [hpending])⟩
    · refine h.ack_pending p ?_
      rw [hpending]
      exact List.mem_cons_of_mem _ hp
  · exact h

/-- What is settled is the acknowledgement of a frame that is decided, and as it is decided. -/
theorem settleAs {ack : AckRef} {outcome : Outcome Unit} {task : Task}
    (hsettling : s.task.settling? = some ack) (hheld : s.task.held = []) (hheld' : task.held = [])
    (hafter : task.settling? = none) (hgone : task ≠ .gone)
    (hcarrying : task.isCarrying = true → s.task.isCarrying = true)
    (hok : s.task = .handed ack → outcome = .ok ())
    (hrefused : s.task = .refusing ack → outcome = .error .connectionClosed) :
    Accounts (s.settleAs ack outcome task) := by
  have hpending : (s.settleAs ack outcome task).pending = s.pending := by
    change task.held ++ s.lane = s.task.held ++ s.lane
    rw [hheld, hheld']
  have hself : (s.settleAs ack outcome task).acks ack = (s.acks ack).settle outcome :=
    Function.update_self ..
  have hother : ∀ r ≠ ack, (s.settleAs ack outcome task).acks r = s.acks r := fun r hr =>
    Function.update_of_ne hr ..
  obtain ⟨decided, hdecided, rfl⟩ := h.settling ack hsettling
  refine ⟨hpending ▸ h.queued_eq, fun hc => h.refused_eq_nil (hcarrying hc),
    fun hg => absurd hg hgone, h.nodup, h.lt_writes, fun r hr => ?_, fun p hp => .inl ?_,
    fun p hp => .inl ?_, fun p hp => ?_, fun r hr hne => ?_⟩
  · rw [show (s.settleAs decided.2 outcome task).task = task from rfl, hafter] at hr
    cases hr
  · by_cases heq : p.2 = decided.2
    · rw [heq, hself]
      rcases h.ack_handed p hp with hdone | ⟨htask, hwaiting⟩
      · rw [← heq, hdone]
        rfl
      · rw [← heq, hwaiting, hok (heq ▸ htask)]
        rfl
    · rw [hother _ heq]
      refine (h.ack_handed p hp).resolve_right fun hwaiting => ?_
      rw [hwaiting.1] at hsettling
      exact heq (Option.some.inj hsettling)
  · by_cases heq : p.2 = decided.2
    · rw [heq, hself]
      rcases h.ack_refused p hp with hdone | ⟨htask, hwaiting⟩
      · rw [← heq]
        exact hdone.settle outcome
      · rw [← heq, hwaiting, hrefused (heq ▸ htask)]
        exact .inl rfl
    · rw [hother _ heq]
      refine (h.ack_refused p hp).resolve_right fun hwaiting => ?_
      rw [hwaiting.1] at hsettling
      exact heq (Option.some.inj hsettling)
  · rw [hpending] at hp
    rw [hother _ (h.ne_of_decided hdecided hp).symm]
    exact h.ack_pending p hp
  · have hqueued : decided ∈ s.queued := by
      rw [h.queued_eq]
      exact List.mem_append_left _ hdecided
    rw [hother r (hne decided hqueued).symm]
    exact h.ack_unqueued r hr hne

private theorem settle : Accounts (s.after .settle) := by
  simp only [Scene.after]
  split
  · next ack htask =>
    exact h.settleAs (by rw [htask]; rfl) (by rw [htask]; rfl) rfl rfl (by rintro ⟨⟩)
      (fun _ => by rw [htask]; rfl) (fun _ => rfl) fun hr => by rw [htask] at hr; cases hr
  · next ack htask =>
    exact h.settleAs (by rw [htask]; rfl) (by rw [htask]; rfl) rfl rfl (by rintro ⟨⟩)
      (by rintro ⟨⟩) (fun hr => by rw [htask] at hr; cases hr) fun _ => rfl
  · exact h

/-- What is on the lane when the task lets go of it is lost. -/
theorem leave : Accounts (s.after .leave) := by
  simp only [Scene.after]
  split
  · next htask =>
    have hsettling : s.task.settling? = none := by rw [htask]; rfl
    have hpending : s.pending = s.lane := by rw [pending, htask]; rfl
    have hlane : s.abandon.lane = [] := s.lane_setLane []
    have hacks : ∀ r, s.abandon.acks r =
        if r ∈ s.lane.map Prod.snd then (s.acks r).lose else s.acks r := fun _ => rfl
    have hover : ∀ r, (s.acks r).isOver = true → s.abandon.acks r = s.acks r := by
      intro r hr
      rw [hacks]
      split
      · exact Ack.lose_of_isOver hr
      · rfl
    refine ⟨?_, by rintro ⟨⟩, fun _ => hlane, h.nodup, h.lt_writes, by rintro _ ⟨⟩,
      fun p hp => .inl ?_, fun p hp => .inl ?_, fun p hp => ?_, fun r hr hne => ?_⟩
    · rw [pending, hlane]
      change s.queued = s.handed ++ (s.refused ++ s.lane) ++ []
      rw [h.queued_eq, hpending]
      simp
    · have hok := h.ack_handed_of_settled hsettling hp
      rw [hover _ (by rw [hok]; rfl), hok]
    · rcases List.mem_append.mp hp with hp | hp
      · have hfailed := h.ack_refused_of_settled hsettling hp
        rwa [hover _ hfailed.isOver]
      · rw [hacks, if_pos (List.mem_map_of_mem hp), h.ack_pending p (hpending ▸ hp)]
        exact .inr rfl
    · rw [pending, hlane] at hp
      cases hp
    · have hclosed := h.ack_unqueued r hr hne
      rw [hover r (by rw [hclosed]; rfl), hclosed]
  · exact h

/-- Every act leaves the accounts in order. -/
theorem after (act : Act) : Accounts (s.after act) := by
  cases act with
  | write t frame =>
    simp only [Scene.after]
    split
    · split
      · exact h.congr rfl rfl rfl rfl rfl rfl rfl
      · exact h.answer
    · exact h
  | queue t =>
    have hmove : Accounts { s.move t .idle with writing := s.writing - 1 } :=
      h.congr rfl rfl rfl rfl rfl rfl rfl
    simp only [Scene.after]
    split
    · split
      · exact hmove.answer
      · next htask => exact hmove.put htask _
    · exact h
  | close t =>
    simp only [Scene.after]
    split
    · exact h.congr rfl (s.link.lane_close s.side) rfl rfl rfl rfl rfl
    · exact h
  | publish t =>
    simp only [Scene.after]
    split
    · exact h.congr rfl rfl rfl rfl rfl rfl rfl
    · exact h
  | tell t =>
    simp only [Scene.after]
    split
    · exact h.congr rfl rfl rfl rfl rfl rfl rfl
    · exact h.congr rfl rfl rfl rfl rfl rfl rfl
    · exact h
  | release => exact h.congr rfl rfl rfl rfl rfl rfl rfl
  | heed => exact h.heed
  | part => exact h.part
  | take => exact h.take
  | look => exact h.look
  | hand => exact h.hand
  | settle => exact h.settle
  | finish => exact h.finish
  | leave => exact h.leave

end Accounts

end Scene

end Passage

end Switchboard
