import Switchboard.Proofs.Link.Scene

/-!
# Who tells that a link is closed

The call that closed the link first is the only one that tells of it, until both sides are told.
Every act keeps it so.
-/

namespace Switchboard.Passage

/-- What a call that closes the link knows of the telling: whether the tasks can know, and who is
told. -/
def Stage.progress? : Stage → Option (Bool × List Side)
  | publishing => some (false, [])
  | telling .client => some (true, [])
  | telling .server => some (true, [.client])
  | _ => none

namespace Scene

/-- Who has been told that the link is closed, and who is about to tell. -/
structure Tidings (s : Scene) : Prop where
  /-- One call tells of the closing. -/
  alone : ∀ t u, (s.stage t).progress?.isSome = true → (s.stage u).progress?.isSome = true → t = u
  progress : ∀ t known, (s.stage t).progress? = some known → (s.isPublished, s.told) = known
  of_open : s.link.isOpen = true → (∀ t, (s.stage t).progress? = none) ∧ s.isPublished = false ∧
    s.told = [] ∧ s.closes = 0
  of_closed : s.link.isOpen = false → 0 < s.closes ∧
    ((∃ t, (s.stage t).progress?.isSome = true) ∨
      s.isPublished = true ∧ s.told = [.client, .server])

/-- On a link that was just made there is nothing to tell. -/
theorem tidings_start (client server : ConnectionRef × Handler) (side : Side) :
    Tidings { link := { client, server }, side } where
  alone := by rintro _ _ ⟨⟩
  progress := by rintro _ _ ⟨⟩
  of_open := fun _ => ⟨fun _ => rfl, rfl, rfl, rfl⟩
  of_closed := by rintro ⟨⟩

variable {s : Scene}

private theorem stage_move_self (s : Scene) (t : CallId) (stage : Stage) :
    (s.move t stage).stage t = stage := Function.update_self ..

/-- One call moves at a time. -/
theorem stage_move_of_ne (s : Scene) (stage : Stage) {t u : CallId} (h : u ≠ t) :
    (s.move t stage).stage u = s.stage u := Function.update_of_ne h ..

namespace Tidings

variable (h : Tidings s)
include h

/-- A thread that has nothing to tell moves on, and has nothing to tell. -/
theorem move {t : CallId} (hbefore : (s.stage t).progress? = none) (stage : Stage)
    (hafter : stage.progress? = none) : Tidings (s.move t stage) := by
  have hstage : ∀ u, ((s.move t stage).stage u).progress? = (s.stage u).progress? := by
    intro u
    by_cases hu : u = t
    · rw [hu, stage_move_self, hafter, hbefore]
    · rw [stage_move_of_ne s stage hu]
  refine ⟨fun u v => ?_, fun u known => ?_, fun hopen => ?_, fun hclosed => ?_⟩
  · rw [hstage, hstage]
    exact h.alone u v
  · rw [hstage]
    exact h.progress u known
  · simp only [hstage]
    exact h.of_open hopen
  · simp only [hstage]
    exact h.of_closed hclosed

/-- What leaves the closing and those who tell of it as they are. -/
theorem congr {s' : Scene} (hstage : s'.stage = s.stage) (hopen : s'.link.isOpen = s.link.isOpen)
    (hpublished : s'.isPublished = s.isPublished) (htold : s'.told = s.told)
    (hcloses : s'.closes = s.closes) : Tidings s' := by
  refine ⟨fun t u => ?_, fun t known => ?_, fun hopen' => ?_, fun hclosed => ?_⟩
  · rw [hstage]
    exact h.alone t u
  · rw [hstage, hpublished, htold]
    exact h.progress t known
  · rw [hstage, hpublished, htold, hcloses]
    exact h.of_open (hopen ▸ hopen')
  · rw [hstage, hpublished, htold, hcloses]
    exact h.of_closed (hopen ▸ hclosed)

/-- Who tells of the closing goes on to what it knows by then. -/
theorem goOn {t : CallId} (hbefore : (s.stage t).progress?.isSome = true) (stage : Stage)
    (told : List Side)
    (hafter : stage.progress? = some (true, told) ∨
      stage.progress? = none ∧ told = [.client, .server]) :
    Tidings { s.move t stage with isPublished := true, told } := by
  have hclosed : s.link.isOpen = false := by
    rw [← Bool.not_eq_true]
    intro hopen
    rw [(h.of_open hopen).1 t] at hbefore
    cases hbefore
  have hother : ∀ u ≠ t, ((s.move t stage).stage u).progress?.isSome = false := by
    intro u hu
    rw [stage_move_of_ne s stage hu, ← Bool.not_eq_true]
    exact fun hsome => hu (h.alone u t hsome hbefore)
  have honly : ∀ u, ((s.move t stage).stage u).progress?.isSome = true → u = t := by
    intro u hsome
    by_contra hu
    rw [hother u hu] at hsome
    cases hsome
  refine ⟨fun u v hu hv => (honly u hu).trans (honly v hv).symm, fun u known hknown => ?_,
    fun hopen => ?_, fun _ => ⟨(h.of_closed hclosed).1, ?_⟩⟩
  · obtain rfl := honly u (Option.isSome_of_eq_some hknown)
    change ((s.move u stage).stage u).progress? = _ at hknown
    rw [stage_move_self] at hknown
    rcases hafter with hafter | ⟨hnone, -⟩
    · rw [hafter] at hknown
      exact Option.some.inj hknown
    · rw [hnone] at hknown
      cases hknown
  · rw [show ({ s.move t stage with isPublished := true, told } : Scene).link = s.link from rfl,
      hclosed] at hopen
    cases hopen
  · rcases hafter with hafter | ⟨-, htold⟩
    · refine .inl ⟨t, ?_⟩
      change ((s.move t stage).stage t).progress?.isSome = true
      rw [stage_move_self, hafter]
      rfl
    · exact .inr ⟨rfl, htold⟩

/-- Who closes the link first has to tell of it, and nobody else. -/
theorem close (t : CallId) : Tidings (s.after (.close t)) := by
  simp only [Scene.after]
  split
  · next hidle =>
    have hquiet : (s.stage t).progress? = none := by rw [hidle]; rfl
    have hclosed : s.link.close.2.isOpen = false := s.link.isOpen_close
    cases hopen : s.link.isOpen
    · have hstay := h.move hquiet .idle rfl
      refine ⟨hstay.alone, hstay.progress, fun hopen' => ?_, fun _ => ⟨Nat.succ_pos _, ?_⟩⟩
      · rw [hclosed] at hopen'
        cases hopen'
      · exact (hstay.of_closed hopen).2
    · obtain ⟨hnone, hunpublished, hnobody, -⟩ := h.of_open hopen
      have honly : ∀ u, ((s.move t .publishing).stage u).progress?.isSome = true → u = t := by
        intro u hsome
        by_contra hu
        rw [stage_move_of_ne s _ hu, hnone u] at hsome
        cases hsome
      have hself : ((s.move t .publishing).stage t).progress? = some (false, []) := by
        rw [stage_move_self]
        rfl
      refine ⟨fun u v hu hv => (honly u hu).trans (honly v hv).symm, fun u known hknown => ?_,
        fun hopen' => ?_, fun _ => ⟨Nat.succ_pos _, .inl ⟨t, Option.isSome_of_eq_some hself⟩⟩⟩
      · obtain rfl := honly u (Option.isSome_of_eq_some hknown)
        rw [← Option.some.inj (hself.symm.trans hknown), ← hunpublished, ← hnobody]
        rfl
      · rw [hclosed] at hopen'
        cases hopen'
  · exact h

private theorem publish (t : CallId) : Tidings (s.after (.publish t)) := by
  simp only [Scene.after]
  split
  · next ht =>
    have hbefore : (s.stage t).progress? = some (false, []) := by rw [ht]; rfl
    have htold : s.told = [] := congrArg Prod.snd (h.progress t _ hbefore)
    have hgo := h.goOn (Option.isSome_of_eq_some hbefore) (.telling .client) []
      (.inl rfl)
    rw [← htold] at hgo
    exact hgo
  · exact h

private theorem tell (t : CallId) : Tidings (s.after (.tell t)) := by
  simp only [Scene.after]
  split
  · next ht =>
    have hbefore : (s.stage t).progress? = some (true, []) := by rw [ht]; rfl
    obtain ⟨hpublished, htold⟩ := Prod.mk.inj (h.progress t _ hbefore)
    have hgo := h.goOn (Option.isSome_of_eq_some hbefore) (.telling .server) [.client]
      (.inl rfl)
    rw [← hpublished] at hgo
    rw [htold]
    exact hgo
  · next ht =>
    have hbefore : (s.stage t).progress? = some (true, [.client]) := by rw [ht]; rfl
    obtain ⟨hpublished, htold⟩ := Prod.mk.inj (h.progress t _ hbefore)
    have hgo := h.goOn (Option.isSome_of_eq_some hbefore) .idle [.client, .server]
      (.inr ⟨rfl, rfl⟩)
    rw [← hpublished] at hgo
    rw [htold]
    exact hgo
  · exact h

/-- Every act keeps the closing told by one call at most, and to each side once at most. -/
theorem after (act : Act) : Tidings (s.after act) := by
  cases act with
  | write t frame =>
    simp only [Scene.after]
    split
    · next hidle _ =>
      split
      · exact (h.move (by rw [hidle]; rfl) (.writing frame) rfl).congr rfl rfl rfl rfl rfl
      · exact h.congr rfl rfl rfl rfl rfl
    · exact h
  | queue t =>
    simp only [Scene.after]
    split
    · next frame hwriting =>
      have hmove : Tidings (s.move t .idle) := h.move (by rw [hwriting]; rfl) .idle rfl
      split
      · exact hmove.congr rfl rfl rfl rfl rfl
      · exact hmove.congr rfl (isOpen_setLane _ _) rfl rfl rfl
    · exact h
  | close t => exact h.close t
  | publish t => exact h.publish t
  | tell t => exact h.tell t
  | release | heed | part | take | look | hand | settle | finish | leave =>
    simp only [Scene.after]
    repeat' split
    all_goals first
      | exact h
      | exact h.congr rfl rfl rfl rfl rfl
      | exact h.congr rfl (isOpen_setLane _ _) rfl rfl rfl

end Tidings

end Scene

end Switchboard.Passage
