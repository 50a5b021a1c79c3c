import Switchboard.Proofs.Client.Moves

/-!
# Closing a client

A call files its promise before it looks whether the client is closed, and the call that closes the
client marks it before it empties the table. So every request is either in the table when that is
emptied or turned back by its own call, and once the closing call has returned every promise is
done, but for those whose entries another thread has taken out for a lost connection and has not
failed yet: it takes them out under the lock of the table and fails them without it.
-/

namespace Switchboard.Client

open Exchange (promisesOf Entry)

namespace Scene

/-- After the closing call has returned, a call that was not admitted yet never is. -/
theorem turnedBack_after {s : Scene} (hclosed : s.closing = .returned) {p : PromiseId}
    (hp : s.stage p ≠ .admitted ∧ s.stage p ≠ .sending) (a : Act) :
    (s.after a).closing = .returned ∧
      (s.after a).stage p ≠ .admitted ∧ (s.after a).stage p ≠ .sending := by
  have hmove : ∀ (t : Scene) (q : PromiseId) (stage : Stage), t.stage = s.stage →
      (p = q → stage ≠ .admitted ∧ stage ≠ .sending) →
      (t.move q stage).stage p ≠ .admitted ∧ (t.move q stage).stage p ≠ .sending := by
    intro t q stage ht hstage
    rw [stage_move, ht]
    split
    · next heq => exact hstage heq
    · exact hp
  cases a with
  | draw =>
    refine ⟨hclosed, ?_⟩
    rw [stage_draw]
    split
    · simp
    · exact hp
  | file q =>
    simp only [after]
    split
    · exact ⟨hclosed, hmove _ q _ rfl fun _ => by simp⟩
    · exact ⟨hclosed, hp⟩
  | look q =>
    simp only [after]
    split
    · rw [if_neg (by rw [hclosed]; decide)]
      exact ⟨hclosed, hmove s q _ rfl fun _ => by simp⟩
    · exact ⟨hclosed, hp⟩
  | spawn q =>
    simp only [after]
    split
    · next hq => exact ⟨hclosed, hmove s q _ rfl fun heq => absurd (heq ▸ hq) hp.1⟩
    · exact ⟨hclosed, hp⟩
  | refuse q f =>
    simp only [after]
    split
    · exact ⟨hclosed, hmove s q _ rfl fun _ => by simp⟩
    · exact ⟨hclosed, hp⟩
  | giveUp q =>
    simp only [after]
    split
    · exact ⟨hclosed, hmove _ q _ rfl fun _ => by simp⟩
    · exact ⟨hclosed, hp⟩
  | received frame | lose c => exact ⟨hclosed, hp⟩
  | close | release c | drain | leave =>
    simp [after, hclosed, hp]
  | sentOn q c | fail q f | settle entry | settleOwn | complete q o | share q | drop q =>
    simp only [after]
    split <;> exact ⟨hclosed, hp⟩

/-- After the closing call has returned, no run admits a call that was not admitted yet. -/
theorem turnedBack_run {s : Scene} (hclosed : s.closing = .returned) {p : PromiseId}
    (hp : s.stage p ≠ .admitted ∧ s.stage p ≠ .sending) (acts : List Act) :
    (s.run acts).closing = .returned ∧
      (s.run acts).stage p ≠ .admitted ∧ (s.run acts).stage p ≠ .sending := by
  induction acts generalizing s with
  | nil => exact ⟨hclosed, hp⟩
  | cons a rest ih =>
    obtain ⟨hclosed', hp'⟩ := turnedBack_after hclosed hp a
    exact ih hclosed' hp'

namespace Sound

variable {n : Nat} {s : Scene}

/-- Once the closing call has returned, a request that its call has failed is done. -/
theorem isDone_of_failed (h : Sound n s) (hclosed : s.closing = .returned) {p : PromiseId}
    (hp : s.stage p = .failed) : s.IsDone p := by
  rw [isDone_iff]
  intro hpend
  have hm := h.left_of_failed p hp hpend
  rw [h.left_nil (by rw [hclosed]; rfl)] at hm
  cases hm

/-- Once the table was emptied for good, a request with a task is not in it. -/
theorem isFiled_of_sending (h : Sound n s) (hdrained : s.closing.isDrained = true) {p : PromiseId}
    (hp : s.stage p = .sending) : s.exchange.isFiled p = false := by
  have hlt := h.lt_of_stage (p := p) (by rw [hp]; decide)
  rw [Exchange.isFiled]
  cases he : s.exchange.entries[Exchange.number p]? with
  | none => rfl
  | some e =>
    have hturned := (h.allowed _ e he).isTurnedBack hdrained
    rw [h.promise_eq hlt he, hp] at hturned
    cases hturned

/-- Once the closing call has returned, a request with a task that somebody waits for is done or
was taken out of the table for a lost connection. -/
theorem isDone_or_lost_of_sending (h : Sound n s) (hclosed : s.closing = .returned) {p : PromiseId}
    (hp : s.stage p = .sending) (hheld : p ∈ s.held) : s.IsDone p ∨ p ∈ promisesOf s.lost := by
  rw [isDone_iff, or_iff_not_imp_left, not_not]
  intro hpend
  have hpos := h.copies_pos p hheld (by rw [hp]; decide) hpend
  rw [copies, h.isFiled_of_sending (by rw [hclosed]; rfl) hp, taken,
    h.left_nil (by rw [hclosed]; rfl), List.append_nil, Bool.toNat_false, Nat.zero_add] at hpos
  exact List.count_pos_iff.mp hpos

/-- A thread that comes to an entry that it has taken out for a lost connection fails it. -/
theorem isDone_settle (h : Sound n s) {entry : UInt64 × Entry} (hm : entry ∈ s.lost) :
    (s.after (.settle entry)).IsDone entry.2.promise := by
  have htaken : entry.2.promise ∈ promisesOf s.taken :=
    List.mem_map_of_mem (List.mem_append_left _ hm)
  have hlt := h.lt_size (h.taken_lt htaken)
  simp only [Scene.after, hm, if_true]
  change ((Exchange.failEntry _ s.store entry).get entry.2.promise).outcome.isSome = true
  rw [Exchange.failEntry, Promises.outcome_release_complete _ _ _ hlt, if_pos rfl]
  rfl

end Sound

end Scene

/-- In every run of fewer than `2 ^ 64` requests, once the call that closes the client has
returned: the promise of every request that has returned is done as long as somebody holds it,
unless another thread has taken its entry out for a lost connection and is about to fail it; that
thread does fail it; and every request made from then on returns a promise that is done. -/
theorem returned_requests_done (acts later : List Act)
    (hlt : (acts ++ later).countP Act.isDraw < 2 ^ 64)
    (hclosed : (Scene.ofActs acts).closing = .returned) :
    let s := Scene.ofActs acts
    let s' := Scene.ofActs (acts ++ later)
    (∀ p, (s.stage p).isReturned = true → p ∈ s.held → s.IsDone p ∨ p ∈ promisesOf s.lost) ∧
    (∀ entry, entry ∈ s.lost → (s.after (.settle entry)).IsDone entry.2.promise) ∧
    ∀ p, s.stage p = .absent → (s'.stage p).isReturned = true → s'.IsDone p := by
  intro s s'
  have hbefore : acts.countP Act.isDraw < 2 ^ 64 := by
    rw [List.countP_append] at hlt
    exact Nat.lt_of_le_of_lt (Nat.le_add_right _ _) hlt
  have h := Scene.sound_ofActs hbefore
  have h' := Scene.sound_ofActs hlt
  refine ⟨?_, ?_, ?_⟩
  · intro p hp hheld
    cases hstage : s.stage p with
    | sending => exact h.isDone_or_lost_of_sending hclosed hstage hheld
    | failed => exact .inl (h.isDone_of_failed hclosed hstage)
    | _ => simp [hstage, Stage.isReturned] at hp
  · intro entry hm
    exact h.isDone_settle hm
  · intro p habsent hp
    have hrun : s' = s.run later := List.foldl_append
    obtain ⟨hclosed', -, hsending⟩ :=
      Scene.turnedBack_run hclosed (p := p) (by rw [habsent]; decide) later
    rw [← hrun] at hclosed' hsending
    cases hstage : s'.stage p with
    | failed => exact h'.isDone_of_failed hclosed' hstage
    | sending => exact absurd hstage hsending
    | _ => simp [hstage, Stage.isReturned] at hp

/-- One request was lost with its connection and is about to be failed, one is left to the closing
call, and one comes too late. -/
theorem returned_requests_done_of_three :
    let acts : List Act := [.draw, .file 0, .look 0, .spawn 0, .draw, .file 1, .look 1, .spawn 1,
      .sentOn 0 7, .lose 7, .close, .release 7, .drain, .settleOwn, .leave]
    let later : List Act := [.draw, .file 2, .look 2, .giveUp 2]
    let s := Scene.ofActs acts
    let s' := Scene.ofActs (acts ++ later)
    s.closing = .returned ∧ 0 ∈ promisesOf s.lost ∧ s.IsDone 1 ∧ s'.stage 2 = .failed ∧
      s'.IsDone 2 := by
  intro acts later s s'
  have hclosed : s.closing = .returned := by decide +kernel
  have hlost : promisesOf s.lost = [0] := by decide +kernel
  have hfailed : s'.stage 2 = .failed := by decide +kernel
  obtain ⟨hdone, -, hlater⟩ := returned_requests_done acts later (by decide) hclosed
  refine ⟨hclosed, by rw [hlost]; decide, ?_, hfailed, ?_⟩
  · apply (hdone 1 (by decide +kernel) (by decide +kernel)).resolve_right
    change ¬ 1 ∈ promisesOf s.lost
    rw [hlost]
    decide
  · exact hlater 2 (by decide +kernel) (by rw [hfailed]; rfl)

/-- A request whose connection is lost while the client is closed may be pending when the closing
call returns: the thread that took its entry out of the table has not failed it yet. -/
theorem not_forall_returned_isDone :
    ¬ ∀ acts : List Act, acts.countP Act.isDraw < 2 ^ 64 →
      (Scene.ofActs acts).closing = .returned →
      ∀ p, ((Scene.ofActs acts).stage p).isReturned = true → p ∈ (Scene.ofActs acts).held →
        (Scene.ofActs acts).IsDone p := by
  intro hall
  have hdone := hall [.draw, .file 0, .look 0, .spawn 0, .sentOn 0 7, .lose 7, .close, .release 7,
    .drain, .leave] (by decide) (by decide +kernel) 0 (by decide +kernel) (by decide +kernel)
  revert hdone
  unfold Scene.IsDone
  decide +kernel

end Switchboard.Client
