import Switchboard.Proofs.Registry.Enrolment
import Switchboard.Proofs.Registry.Membership

/-!
# Recovery of a member

A member whose session ends opens another one and registers everything again, provided that it
hears of the end. Once it has read everything, its session is alive and owns what it has registered,
unless the news that the session ended was among the events that it lost, or the new session was cut
off before everything was registered again.
-/

namespace Switchboard

namespace Enrolment

variable {e : Enrolment}

/-- An address stays filed while the session gains no node at its path, and loses it only by
ending. -/
theorem Filed.change {c c' : Coordinator} {session : SessionId} {unpublished : List String}
    {a : Address} (h : Filed c session unpublished a)
    (hgain : ∀ path, a.nodePath = .ok path → c'.Owns session path → c.Owns session path)
    (hkeep : ∀ path, a.nodePath = .ok path → c'.sessions[session]? ≠ some .expired →
      c.Owns session path → c'.Owns session path)
    (hended : c.sessions[session]? = some .expired → c'.sessions[session]? = some .expired) :
    Filed c' session unpublished a := by
  obtain ⟨path, hpath, hout, hin⟩ := h
  refine ⟨path, hpath, fun hm ho => hout hm (hgain path hpath ho), fun hm hne => ?_⟩
  exact hkeep path hpath hne (hin hm fun he => hne (hended he))

/-! ### Steps of the member -/

/-- An address is registered by a put at its path, or not at all. -/
theorem register_cases (e : Enrolment) (a : Address) :
    (∃ path, a.nodePath = .ok path ∧ e.coordinator.sessions[e.member.session]? = some .connected ∧
      e.register a = { e with
        member := { e.member with registered := Membership.addAddress e.member.registered a }
        coordinator := (e.coordinator.put e.member.session path (some a.text) true).2
        cache := (e.cache.insert a.serviceKey a).2
        unpublished := e.unpublished.filter fun key => some key != some path }) ∨
    e.register a = e := by
  unfold register
  rcases e.member.register_cases e.coordinator e.cache a with ⟨path, hpath, hs, hr⟩ | ⟨f, hr⟩
  · refine .inl ⟨path, hpath, hs, ?_⟩
    rw [hr, hpath]
    rfl
  · refine .inr ?_
    rw [hr]

/-- An address is taken back by a deletion at its path, or not at all. -/
theorem unregister_cases (e : Enrolment) (a : Address) :
    (∃ path, a.nodePath = .ok path ∧ e.unregister a = { e with
      member := { e.member with registered := Membership.removeAddress e.member.registered a }
      coordinator := (e.coordinator.delete e.member.session path).2
      cache := (e.cache.remove a.serviceKey a).2 }) ∨
    e.unregister a = e := by
  unfold unregister
  rcases e.member.unregister_cases e.coordinator e.cache a with ⟨path, hpath, -, hu⟩ | ⟨f, hu⟩
  · exact .inl ⟨path, hpath, by rw [hu]⟩
  · refine .inr ?_
    rw [hu]

namespace Sound

/-- A registered address is owned from then on. -/
theorem register (h : Sound e) (a : Address) : Sound (e.register a) := by
  rcases e.register_cases a with ⟨path, hpath, hs, he⟩ | he
  · rw [he]
    have hself : Filed (e.coordinator.put e.member.session path (some a.text) true).2
        e.member.session (e.unpublished.filter fun key => some key != some path) a := by
      refine ⟨path, hpath, fun hm => ?_, fun _ _ => ?_⟩
      · simp at hm
      · exact Coordinator.owns_put_self (Coordinator.put_eq_ok hs)
    constructor
    · exact h.attentive.put _ _ _ _
    · intro b hb
      rcases Membership.mem_addAddress hb with hb | hb
      · obtain ⟨key, hkey, hout, hin⟩ := h.filed b hb
        by_cases hsame : key = path
        · obtain ⟨path', hpath', hself⟩ := hself
          rw [hpath] at hpath'
          cases hpath'
          exact ⟨path, hsame ▸ hkey, hself⟩
        · refine ⟨key, hkey, ?_⟩
          simpa [Coordinator.owns_put_of_ne hsame, Coordinator.sessions_put, hsame]
            using And.intro hout hin
      · rw [hb]
        exact hself
    · intro hp hc b hb key hkey hm
      obtain ⟨hm, hne⟩ := List.mem_filter.mp hm
      rcases Membership.mem_addAddress hb with hb | hb
      · exact h.published hp hc b hb key hkey hm
      · rw [hb, hpath] at hkey
        cases hkey
        simp at hne
  · rw [he]
    exact h

/-- Taking an address back leaves the others filed. -/
theorem unregister (h : Sound e) {a : Address}
    (hapart : ∀ b, b ∈ e.member.registered → (b == a) = true ∨ ∀ path key,
      a.nodePath = .ok path → b.nodePath = .ok key → Tree.isWithin path key = false) :
    Sound (e.unregister a) := by
  rcases e.unregister_cases a with ⟨path, hpath, he⟩ | he
  · rw [he]
    have hrest : ∀ b, b ∈ Membership.removeAddress e.member.registered a →
        b ∈ e.member.registered ∧
          ∀ key, b.nodePath = .ok key → Tree.isWithin path key = false := by
      intro b hb
      obtain ⟨hb, hne⟩ := List.mem_filter.mp hb
      refine ⟨hb, fun key hkey => ?_⟩
      rcases hapart b hb with heq | hpaths
      · rw [heq] at hne
        cases hne
      · exact hpaths path key hpath hkey
    constructor
    · exact h.attentive.delete _ _
    · intro b hb
      obtain ⟨hb, hpaths⟩ := hrest b hb
      apply (h.filed b hb).change
      · intro key hkey ho
        exact (Coordinator.owns_delete_of_not_isWithin (hpaths key hkey) _ _).mp ho
      · intro key hkey _ ho
        exact (Coordinator.owns_delete_of_not_isWithin (hpaths key hkey) _ _).mpr ho
      · intro hended
        rw [Coordinator.sessions_delete]
        exact hended
    · intro hp hc b hb
      exact h.published hp hc b (hrest b hb).1
  · rw [he]
    exact h

/-- A member that takes everything back still hears of its session. -/
theorem close (h : Sound e) : Sound e.close := by
  constructor
  · exact e.member.withdrawAll_induction
      (P := fun c => Attentive c e.member.session e.member.position e.dropped e.phase)
      (fun _ path h => h.delete _ path) h.attentive
  · intro a ha
    cases ha
  · intro _ _ a ha
    cases ha

/-- What others do to a coordinator keeps everything filed, if they leave it alone. -/
theorem move (h : Sound e) {move : Coordinator.Move}
    (hspares : ∀ a, a ∈ e.member.registered → ∀ key, a.nodePath = .ok key → move.Spares key)
    (hfits : (e.coordinator.after move).sessions.size + 1 < 2 ^ 64) :
    Sound { e with coordinator := e.coordinator.after move } := by
  have ho := h.attentive.orderly
  have ho' := ho.after move hfits
  have ht := e.coordinator.tells_after move
  constructor
  · exact h.attentive.tells ho' ht (e.coordinator.isSome_after move h.attentive.known)
  · intro a ha
    apply (h.filed a ha).change
    · intro key hkey hafter
      exact Coordinator.owns_of_after (hspares a ha key hkey) hafter
    · intro key hkey hne hbefore
      exact ho.owns_after (hspares a ha key hkey) hbefore hne
    · intro hended
      exact ho.expired_of_tells ho' ht hended
  · exact h.published

/-! ### Turns of the member -/

/-- Reading on keeps everything filed, whether an event was read or events were lost. -/
theorem follow (h : Sound e) (hp : e.phase = .following) : Sound e.follow := by
  have ha := h.attentive
  rw [hp] at ha
  unfold Enrolment.follow
  rcases e.coordinator.read_cases e.member.position with
    ⟨-, hread⟩ | ⟨-, event, hget, hread⟩ | ⟨-, hread⟩
  · have hsize : e.coordinator.log.size - Coordinator.kept ≤ e.coordinator.log.size :=
      Nat.sub_le _ _
    -- nothing below may compute with the number of kept events
    generalize e.coordinator.log.size - Coordinator.kept = position at hread hsize
    rw [hread]
    refine ⟨?_, h.filed, h.published⟩
    simp only [hp]
    exact ha.lose hsize
  · rw [hread]
    refine ⟨ha.read hget, h.filed, fun _ => h.published ?_⟩
    rw [hp]
    simp
  · rw [hread]
    exact h

/-- A new session owns nothing yet, and everything is to be published. -/
theorem renew (h : Sound e) (hfits : e.renew.coordinator.sessions.size + 1 < 2 ^ 64) :
    Sound e.renew where
  attentive := attentive_openSession h.attentive.orderly h.attentive.position_le
    h.attentive.mem_log hfits
  filed := by
    intro a ha
    obtain ⟨path, hpath, -, -⟩ := h.filed a ha
    refine ⟨path, hpath, fun _ => ?_, fun hm => ?_⟩
    · exact h.attentive.orderly.not_owns_upcoming path
    · refine absurd (List.mem_filterMap.mpr ⟨a, ha, ?_⟩) hm
      rw [hpath]
      rfl
  published := by
    intro hp
    exact absurd rfl hp

/-- A session publishes everything if it is connected, and nothing if it is not. -/
theorem restore (h : Sound e) (hp : e.phase = .renewed) : Sound e.restore := by
  have ha := h.attentive
  rw [hp] at ha
  have hfiled := h.filed
  have hrestore : e.restore = { e with
      coordinator := (e.member.republish e.coordinator e.member.registered).1
      cache := (e.member.restore e.coordinator e.cache).2.1
      phase := .following
      unpublished := if e.isConnected then [] else e.unpublished
      cutOff := !e.isConnected } := rfl
  rw [hrestore]
  by_cases hs : e.coordinator.sessions[e.member.session]? = some .connected
  · have hconnected : e.isConnected = true := by
      simp only [isConnected, Coordinator.sessionState?, hs, beq_self_eq_true]
    rw [hconnected]
    constructor
    · exact (e.member.republish_induction
        (P := fun c => Attentive c e.member.session e.member.position e.dropped .renewed)
        (fun _ path data h => h.put _ path data true) _ ha).follow
    · intro a ha
      obtain ⟨path, hpath, -, -⟩ := hfiled a ha
      refine ⟨path, hpath, ?_, ?_⟩
      · intro hm
        cases hm
      · intro _ _
        exact e.member.owns_republish hs ha hpath
    · intro _ _ a _ key _ hm
      cases hm
  · have hconnected : e.isConnected = false := by
      simpa only [isConnected, Coordinator.sessionState?, beq_eq_false_iff_ne] using hs
    rw [hconnected, e.member.republish_of_not_connected _ hs]
    refine ⟨ha.follow, hfiled, ?_⟩
    intro _ hc
    cases hc

/-- Every turn keeps an enrolment sound, unless the numbers of the sessions come round. -/
theorem turn (h : Sound e) (hfits : e.turn.coordinator.sessions.size + 1 < 2 ^ 64) :
    Sound e.turn := by
  unfold Enrolment.turn at hfits ⊢
  cases hp : e.phase with
  | following => exact h.follow hp
  | expired =>
    rw [hp] at hfits
    exact h.renew hfits
  | renewed => exact h.restore hp

/-- Every step keeps an enrolment sound, unless the numbers of the sessions come round. -/
theorem step {e' : Enrolment} (h : Sound e) (hs : Step e e')
    (hfits : e'.coordinator.sessions.size + 1 < 2 ^ 64) : Sound e' := by
  cases hs with
  | register a => exact h.register a
  | unregister a hapart => exact h.unregister hapart
  | close => exact h.close
  | look watched cache => exact ⟨h.attentive, h.filed, h.published⟩
  | move move hspares => exact h.move hspares hfits
  | turn => exact h.turn hfits

end Sound

/-- A member that joins has registered nothing and missed nothing. -/
theorem sound_join {c : Coordinator} (h : c.Orderly) (cache : Cache)
    (hfits : (join c cache).coordinator.sessions.size + 1 < 2 ^ 64) : Sound (join c cache) := by
  constructor
  · exact attentive_openSession h (Nat.le_refl _) (fun event hm => by cases hm) hfits
  · intro a ha
    cases ha
  · intro _ _ a ha
    cases ha

/-- No step forgets a session. -/
theorem Step.size_le {e' : Enrolment} (hs : Step e e') :
    e.coordinator.sessions.size ≤ e'.coordinator.sessions.size := by
  cases hs with
  | register a =>
    rcases e.register_cases a with ⟨path, -, -, he⟩ | he <;>
      simp [he, Coordinator.sessions_put]
  | unregister a hapart =>
    rcases e.unregister_cases a with ⟨path, -, he⟩ | he <;>
      simp [he, Coordinator.sessions_delete]
  | close =>
    change _ ≤ (e.member.withdrawAll e.coordinator).2.sessions.size
    exact Nat.le_of_eq (congrArg _ (e.member.sessions_withdrawAll _).symm)
  | look watched cache => exact Nat.le_refl _
  | move move hspares => exact e.coordinator.size_le_after move
  | turn =>
    unfold Enrolment.turn
    cases e.phase with
    | following =>
      simp only [follow]
      split <;> exact Nat.le_refl _
    | expired => exact e.coordinator.size_le_after .openSession
    | renewed =>
      change _ ≤ (e.member.republish e.coordinator e.member.registered).1.sessions.size
      exact Nat.le_of_eq (congrArg _ (e.member.sessions_republish _ _).symm)

/-- Every run of an enrolment is sound, unless the numbers of the sessions come round. -/
theorem Reachable.sound (h : Reachable e) (hfits : e.coordinator.sessions.size + 1 < 2 ^ 64) :
    Sound e := by
  induction h with
  | start moves cache =>
    have hsize := Coordinator.size_le_after (moves.foldl Coordinator.after {}) .openSession
    have hfits' := Nat.lt_of_le_of_lt (Nat.succ_le_succ hsize) hfits
    exact sound_join (Coordinator.orderly_empty.run hfits') cache hfits
  | step _ hs ih =>
    exact (ih (Nat.lt_of_le_of_lt (Nat.succ_le_succ hs.size_le) hfits)).step hs hfits

/-- A member may have any number of turns. -/
theorem Reachable.turns (h : Reachable e) (n : Nat) : Reachable (Nat.repeat turn n e) := by
  induction n with
  | zero => exact h
  | succ n ih => exact ih.step (.turn _)

/-! ### Recovery -/

/-- A member is quiet just if it follows the log and has read all of it. -/
theorem isQuiet_iff :
    e.IsQuiet ↔ e.phase = .following ∧ e.coordinator.log.size ≤ e.member.position :=
  and_congr_right fun _ => Coordinator.read_eq_nothing_iff

/-- The session of a member that has read everything is alive and owns the node of every registered
address just if the member did not miss its end and has published every address. Every address is
published unless the session was cut off when everything was to be registered again. Fewer than
`2 ^ 64 - 1` sessions were opened, so that their numbers did not come round. -/
theorem recovered_iff (h : Reachable e) (hfits : e.coordinator.sessions.size + 1 < 2 ^ 64)
    (hquiet : e.IsQuiet) :
    (e.IsEnrolled ↔
      ¬ e.MissedExpiry ∧ ∀ a, a ∈ e.member.registered → e.HasPublished a) ∧
    (e.cutOff = false → ∀ a, a ∈ e.member.registered → e.HasPublished a) := by
  obtain ⟨hphase, hsize⟩ := isQuiet_iff.mp hquiet
  have hs := h.sound hfits
  have hattentive := hs.attentive
  rw [hphase] at hattentive
  refine ⟨⟨?_, ?_⟩, fun hc => hs.published (by simp [hphase]) hc⟩
  · rintro ⟨⟨state, hstate, hne⟩, howns⟩
    refine ⟨fun hmissed => hne ?_, fun a ha key hkey hm => ?_⟩
    · have he := (hattentive.orderly.told _).mp (hattentive.mem_log _ hmissed)
      exact Option.some.inj (hstate.symm.trans he)
    · obtain ⟨path, hpath, hout, -⟩ := hs.filed a ha
      obtain ⟨path', hpath', ho⟩ := howns a ha
      rw [hpath] at hkey hpath'
      cases hkey
      cases hpath'
      exact hout hm ho
  · rintro ⟨hheard, hpublished⟩
    have halive : e.coordinator.sessions[e.member.session]? ≠ some .expired := fun he =>
      hheard (hattentive.mem_dropped hsize he)
    constructor
    · obtain ⟨state, hstate⟩ := Option.isSome_iff_exists.mp hattentive.known
      refine ⟨state, hstate, fun he => halive ?_⟩
      rw [hstate, he]
    · intro a ha
      obtain ⟨path, hpath, -, hin⟩ := hs.filed a ha
      exact ⟨path, hpath, hin (hpublished a ha path hpath) halive⟩

/-- A member whose session ended registers everything again in the session after it. -/
theorem isEnrolled_after_expiry :
    let a := ({ host := some "a", port := 1, path := some "g/s" } : Address).withParameter
      Address.nodeName "n"
    let joined := (join {} {}).register a
    let ended := { joined with coordinator := joined.coordinator.after (.expire 1) }
    let e := Nat.repeat turn 11 ended
    e.IsQuiet ∧ e.member.session = 2 ∧ e.member.registered.length = 1 ∧ e.IsEnrolled := by
  intro a joined ended e
  have hjoined : Reachable joined := .step (.start [] {}) (.register _ a)
  have hended : Reachable ended := hjoined.step (.move _ (.expire 1) fun _ _ _ _ => trivial)
  have hquiet : e.IsQuiet := ⟨by decide +kernel, by decide +kernel⟩
  have hdropped : e.dropped = [] := by decide +kernel
  obtain ⟨hiff, hpublished⟩ := recovered_iff (hended.turns 11) (by decide +kernel) hquiet
  refine ⟨hquiet, by decide +kernel, by decide +kernel, hiff.mpr ⟨?_, ?_⟩⟩
  · intro hmissed
    change _ ∈ e.dropped at hmissed
    rw [hdropped] at hmissed
    cases hmissed
  · exact hpublished (by decide +kernel)

end Enrolment

end Switchboard
