import Switchboard.Proofs.Client.Sound

/-!
# Every move of a thread keeps a client sound

Calls come to other stages, requests are made, filed and sent, and callers copy and give up their
handles. With what takes entries out of the table these are all acts, so every run keeps a new
client sound.
-/

namespace Switchboard.Client

open Exchange (number number_inj promisesOf Entry)

namespace Scene

namespace Sound

variable {n : Nat} {s : Scene}

/-! ### Calls come to other stages -/

/-- A call that has filed its promise and runs on may come to another stage as long as that allows
an entry that it has in the table, and it fails none but a request that is done or about to be. -/
theorem move (h : Sound n s) {p : PromiseId} {stage : Stage} (hp : s.stage p ≠ .absent)
    (hrunning : (s.stage p).isReturned = false) (hfiled : s.stage p ≠ .numbered)
    (hto : stage ≠ .absent)
    (hallowed : ∀ e, s.exchange.entries[number p]? = some e →
      (s.stage p).Allows s.closing.isDrained e.connection →
        stage.Allows s.closing.isDrained e.connection)
    (hfailed : stage = .failed → s.IsPending p → p ∈ promisesOf s.left) :
    Sound n (s.move p stage) :=
  { h with
    absent_iff := by
      intro q
      rw [stage_move]
      split
      · next heq =>
        rw [heq, ← h.absent_iff p]
        exact iff_of_false hto hp
      · exact h.absent_iff q
    allowed := by
      intro id e he
      change s.exchange.entries[id]? = some e at he
      have hbefore := h.allowed id e he
      rw [stage_move]
      split
      · next heq =>
        rw [heq] at hbefore
        rw [(h.numbered id e he).2, heq] at he
        exact hallowed e he hbefore
      · exact hbefore
    sending_of_lost := by
      intro q hq
      have hsending := h.sending_of_lost q hq
      rw [stage_move, if_neg]
      · exact hsending
      · rintro rfl
        rw [hsending] at hrunning
        cases hrunning
    held_of_running := by
      intro q hq hrun
      rw [stage_move] at hrun
      split at hrun
      · next heq =>
        subst heq
        exact h.held_of_running q hq hrunning
      · exact h.held_of_running q hq hrun
    copies_pos := by
      intro q hq hstage hpend
      rw [stage_move] at hstage
      split at hstage
      · next heq => exact h.copies_pos q hq (heq ▸ hfiled) hpend
      · exact h.copies_pos q hq hstage hpend
    left_of_failed := by
      intro q hstage hpend
      rw [stage_move] at hstage
      split at hstage
      · next heq =>
        subst heq
        exact hfailed hstage hpend
      · exact h.left_of_failed q hstage hpend }

/-- A call that looks whether the client is closed keeps a scene sound. -/
theorem look (h : Sound n s) {p : PromiseId} (hp : s.stage p = .filed) :
    Sound n (s.move p (if s.closing = .idle then .admitted else .refused .connectionClosed)) := by
  apply h.move (by simp [hp]) (by rw [hp]; rfl) (by simp [hp])
  · split <;> simp
  · rintro e - ⟨-, hsending, -⟩
    rw [hp] at hsending
    refine ⟨by split <;> simp, fun hc => absurd (hsending hc) (by simp), ?_⟩
    intro hdrained
    rw [if_neg]
    · rfl
    · intro hidle
      rw [hidle] at hdrained
      cases hdrained
  · intro hc
    split at hc <;> cases hc

/-- A call that has found the client open may go on: if the table was emptied meanwhile, it has
nothing in it any more. -/
theorem goOn (h : Sound n s) {p : PromiseId} {stage : Stage} (hp : s.stage p = .admitted)
    (hstage : stage = .sending ∨ ∃ f, stage = .refused f) : Sound n (s.move p stage) := by
  apply h.move (by simp [hp]) (by rw [hp]; rfl) (by simp [hp])
  · rcases hstage with rfl | ⟨f, rfl⟩ <;> simp
  · rintro e - ⟨-, hsending, hturned⟩
    rw [hp] at hsending hturned
    refine ⟨?_, fun hc => ?_, fun hdrained => ?_⟩
    · rcases hstage with rfl | ⟨f, rfl⟩ <;> simp
    · cases hsending hc
    · cases hturned hdrained
  · intro hc
    rcases hstage with rfl | ⟨f, rfl⟩ <;> cases hc

/-- Whoever waits for a promise and completes its request finds it in the table, finds it done, or
leaves it to whom has taken it out. -/
theorem mem_taken_of_finish (h : Sound n s) {p : PromiseId} (hheld : p ∈ s.held)
    (hfiled : s.stage p ≠ .numbered) (o : Outcome Response)
    (hpend : (s.update (s.exchange.finish s.store (number p) o).2).IsPending p) :
    p ∈ promisesOf s.taken := by
  have hlt := h.held_lt p hheld
  cases he : s.exchange.entries[number p]? with
  | none =>
    simp only [Exchange.finish, he, IsPending, update] at hpend
    have hpos := h.copies_pos p hheld hfiled hpend
    rw [copies, Exchange.isFiled, he] at hpos
    exact List.count_pos_iff.mp (by simpa using hpos)
  | some e =>
    simp only [Exchange.finish, he, IsPending, update, Promises.outcome_release,
      Promises.outcome_complete, h.promise_eq hlt he, h.lt_size hlt] at hpend
    simp at hpend

/-- A call that fails its request and returns keeps a scene sound. -/
theorem giveUp (h : Sound n s) {p : PromiseId} {f : Failure} (hp : s.stage p = .refused f) :
    Sound n ((s.update (s.exchange.finish s.store (s.drawn p) (.error f)).2).move p .failed) := by
  have hlt := h.lt_of_stage (p := p) (by simp [hp])
  have hdone := h.finish (number p) (.error f)
  have hstage : (s.update (s.exchange.finish s.store (number p) (.error f)).2).stage p =
    .refused f := hp
  rw [h.drawn_eq p hlt]
  apply hdone.move (by simp [hstage]) (by rw [hstage]; rfl) (by simp [hstage]) (by simp)
  · intro e he
    change (s.exchange.finish s.store (number p) (.error f)).2.1.entries[number p]? = some e at he
    rw [Exchange.entries_finish_self] at he
    cases he
  · intro _ hpend
    have hheld := h.held_of_running p hlt (by rw [hp]; rfl)
    have hm := h.mem_taken_of_finish hheld (by simp [hp]) _ hpend
    rw [taken, Exchange.promisesOf_append, List.mem_append] at hm
    rcases hm with hm | hm
    · rw [h.sending_of_lost p hm] at hp
      cases hp
    · exact hm

/-! ### Requests are made, filed and sent -/

/-- Drawing a number keeps a scene sound. -/
theorem draw (h : Sound n s) (hlt : n + 1 < 2 ^ 64) : Sound (n + 1) (s.after .draw) where
  lt := hlt
  size_eq := by
    rw [← h.size_eq]
    exact Promises.size_add _ _
  nextId_eq := by
    change s.exchange.nextId + 1 = _
    rw [h.nextId_eq]
    simp [number]
  drawn_eq := by
    intro p hp
    change Function.update s.drawn s.store.size s.exchange.nextId p = _
    rw [Function.update_apply, h.size_eq, h.nextId_eq]
    split
    · next heq => rw [heq]
    · next hne => exact h.drawn_eq p (Nat.lt_of_le_of_ne (Nat.le_of_lt_succ hp) hne)
  absent_iff := by
    intro p
    rw [stage_draw, h.size_eq]
    split
    · next heq => simp [heq]
    · next hne =>
      rw [h.absent_iff p]
      exact ⟨fun hle => Nat.lt_of_le_of_ne hle (Ne.symm hne), Nat.le_of_succ_le⟩
  numbered := h.numbered.mono (Nat.le_succ _)
  allowed := by
    intro id e he
    rw [stage_draw, if_neg (Nat.ne_of_lt (h.lt_size (h.numbered id e he).1))]
    exact h.allowed id e he
  sending_of_lost := by
    intro p hp
    have hsending := h.sending_of_lost p hp
    rw [stage_draw, if_neg (Nat.ne_of_lt (h.lt_size (h.lt_of_stage (by simp [hsending]))))]
    exact hsending
  left_lt := fun p hp => Nat.lt_succ_of_lt (h.left_lt p hp)
  left_nil := h.left_nil
  held_lt := by
    intro p hp
    rcases List.mem_cons.mp hp with heq | hp
    · rw [heq]
      exact h.size_eq ▸ Nat.lt_succ_self n
    · exact Nat.lt_succ_of_lt (h.held_lt p hp)
  held_of_running := by
    intro p hp hrun
    change p ∈ s.store.size :: s.held
    rw [stage_draw] at hrun
    split at hrun
    · next heq => simp [heq]
    · next hne =>
      rw [h.size_eq] at hne
      have hlt := Nat.lt_of_le_of_ne (Nat.le_of_lt_succ hp) hne
      exact List.mem_cons_of_mem _ (h.held_of_running p hlt hrun)
  handles_eq := by
    intro p hp
    change ((s.store.add .pending).2.get p).handles =
      (s.store.size :: s.held).count p + s.copies p
    rw [Promises.get_add, List.count_cons, h.size_eq]
    by_cases heq : p = n
    · have hcount : s.held.count n = 0 := by
        apply List.count_eq_zero.mpr
        intro hm
        exact absurd (h.held_lt _ hm) (Nat.lt_irrefl _)
      simp [heq, hcount, h.copies_next, Promise.pending]
    · simp [heq, Ne.symm heq, h.handles_eq p (Nat.lt_of_le_of_ne (Nat.le_of_lt_succ hp) heq)]
  copies_pos := by
    intro p hp hstage hpend
    rw [stage_draw] at hstage
    split at hstage
    · exact absurd rfl hstage
    · next hne =>
      have hheld := (List.mem_cons.mp hp).resolve_left hne
      change ((s.store.add .pending).2.get p).outcome = none at hpend
      rw [Promises.get_add, if_neg hne] at hpend
      exact h.copies_pos p hheld hstage hpend
  left_of_failed := by
    intro p hstage hpend
    rw [stage_draw] at hstage
    split at hstage
    · cases hstage
    · next hne =>
      change ((s.store.add .pending).2.get p).outcome = none at hpend
      rw [Promises.get_add, if_neg hne] at hpend
      exact h.left_of_failed p hstage hpend

private theorem isSome_enter (h : Sound n s) {p q : PromiseId} (hp : s.stage p = .numbered)
    (hq : q < n) :
    (s.exchange.entries.insert (number p) { promise := p })[number q]?.isSome.toNat =
      (s.exchange.isFiled q).toNat + if p = q then 1 else 0 := by
  have hlt : p < n := h.lt_of_stage (by simp [hp])
  rw [Exchange.entries_insert]
  simp only [number_inj (Nat.lt_trans hlt h.lt) (Nat.lt_trans hq h.lt)]
  split
  · next heq =>
    rw [← heq, h.isFiled_of_numbered hp]
    rfl
  · rfl

/-- Filing the promise of a request under the number that its call has drawn keeps a scene sound. -/
theorem enter (h : Sound n s) {p : PromiseId} (hp : s.stage p = .numbered) :
    Sound n (({ s with
      exchange :=
        { s.exchange with entries := s.exchange.entries.insert (number p) { promise := p } }
      store := s.store.hold p } : Scene).move p .filed) :=
  { h with
    size_eq := (Promises.size_hold _ _).trans h.size_eq
    absent_iff := by
      intro q
      rw [stage_move]
      split
      · next heq =>
        rw [heq, ← h.absent_iff p, hp]
        simp
      · exact h.absent_iff q
    numbered := h.numbered.insert (h.lt_of_stage (by simp [hp])) rfl
    allowed := by
      intro id e he
      change (s.exchange.entries.insert (number p) { promise := p })[id]? = some e at he
      rw [Exchange.entries_insert] at he
      rw [stage_move]
      split at he
      · cases he
        simp only [if_true]
        exact ⟨by simp, fun hc => absurd rfl hc, fun _ => rfl⟩
      · have hbefore := h.allowed id e he
        rw [if_neg fun heq : e.promise = p => hbefore.ne_numbered (by rw [heq, hp])]
        exact hbefore
    sending_of_lost := by
      intro q hq
      have hsending := h.sending_of_lost q hq
      rw [stage_move, if_neg]
      · exact hsending
      · rintro rfl
        rw [hp] at hsending
        cases hsending
    held_of_running := by
      intro q hq hrun
      rw [stage_move] at hrun
      split at hrun
      · next heq =>
        subst heq
        exact h.held_of_running q hq (by rw [hp]; rfl)
      · exact h.held_of_running q hq hrun
    handles_eq := by
      intro q hq
      change ((s.store.hold p).get q).handles = s.held.count q +
        ((s.exchange.entries.insert (number p) { promise := p })[number q]?.isSome.toNat +
          (promisesOf s.taken).count q)
      rw [h.isSome_enter hp hq, Promises.handles_hold, h.handles_eq q hq, copies]
      by_cases heq : p = q
      · simp only [heq, h.lt_size hq, and_self, if_true]
        omega
      · simp [heq]
    copies_pos := by
      intro q hq hstage hpend
      change 0 < (s.exchange.entries.insert (number p) { promise := p })[number q]?.isSome.toNat +
        (promisesOf s.taken).count q
      rw [h.isSome_enter hp (h.held_lt q hq)]
      by_cases heq : p = q
      · rw [if_pos heq]
        omega
      · rw [stage_move, if_neg (Ne.symm heq)] at hstage
        change ((s.store.hold p).get q).outcome = none at hpend
        rw [Promises.outcome_hold] at hpend
        rw [if_neg heq]
        exact h.copies_pos q hq hstage hpend
    left_of_failed := by
      intro q hstage hpend
      rw [stage_move] at hstage
      split at hstage
      · cases hstage
      · change ((s.store.hold p).get q).outcome = none at hpend
        rw [Promises.outcome_hold] at hpend
        exact h.left_of_failed q hstage hpend }

/-- A call that files its promise keeps a scene sound. -/
theorem file (h : Sound n s) {p : PromiseId} (hp : s.stage p = .numbered) :
    Sound n ((s.update (s.exchange.file s.store (s.drawn p) p)).move p .filed) := by
  have hswept := h.sweep
  have hfree := hswept.isFiled_of_numbered (p := p) hp
  change (s.exchange.sweep s.store).1.entries[number p]?.isSome = false at hfree
  rw [Option.isSome_eq_false_iff, Option.isNone_iff_eq_none] at hfree
  rw [h.drawn_eq p (h.lt_of_stage (by simp [hp]))]
  simp only [Exchange.file, hfree]
  exact hswept.enter hp

private theorem copies_note {id : UInt64} {e : Entry} (he : s.exchange.entries[id]? = some e)
    (e' : Entry) (q : PromiseId) :
    copies { s with
      exchange := { s.exchange with entries := s.exchange.entries.insert id e' } } q =
      s.copies q := by
  have hfiled : (s.exchange.entries.insert id e')[number q]?.isSome = s.exchange.isFiled q := by
    rw [Exchange.entries_insert, Exchange.isFiled]
    split
    · next heq => simp [← heq, he]
    · rfl
  change _[number q]?.isSome.toNat + _ = _
  rw [hfiled]
  rfl

/-- A task that notes a connection keeps a scene sound. -/
theorem sentOn (h : Sound n s) {p : PromiseId} (hp : s.stage p = .sending) (c : ConnectionId) :
    Sound n { s with exchange := (s.exchange.sentOn (s.drawn p) c).2 } := by
  have hlt := h.lt_of_stage (p := p) (by simp [hp])
  rw [h.drawn_eq p hlt]
  cases he : s.exchange.entries[number p]? with
  | none => simpa [Exchange.sentOn, he] using h
  | some e =>
    simp only [Exchange.sentOn, he]
    exact { h with
      numbered := h.numbered.insert (h.numbered _ e he).1 (h.numbered _ e he).2
      allowed := by
        intro id e' he'
        rw [Exchange.entries_insert] at he'
        split at he'
        · cases he'
          have hbefore := h.allowed _ e he
          refine ⟨hbefore.ne_numbered, fun _ => ?_, hbefore.isTurnedBack⟩
          rw [h.promise_eq hlt he]
          exact hp
        · exact h.allowed id e' he'
      handles_eq := by
        intro q hq
        rw [copies_note he]
        exact h.handles_eq q hq
      copies_pos := by
        intro q hq hstage hpend
        rw [copies_note he]
        exact h.copies_pos q hq hstage hpend }

/-! ### Callers -/

/-- Callers may copy and give up handles as long as all are counted, and calls keep theirs until
they return. -/
theorem rehold (h : Sound n s) {store : Promises} {held : List PromiseId}
    (hsize : store.size = s.store.size)
    (houtcome : ∀ q, (store.get q).outcome = (s.store.get q).outcome)
    (hheld : ∀ q, q ∈ held → q ∈ s.held)
    (hrunning : ∀ q, q ∈ s.held → (s.stage q).isReturned = false → q ∈ held)
    (hhandles : ∀ q, q < n →
      (store.get q).handles + s.held.count q = (s.store.get q).handles + held.count q) :
    Sound n { s with store, held } :=
  { h with
    size_eq := hsize.trans h.size_eq
    held_lt := fun q hq => h.held_lt q (hheld q hq)
    held_of_running := fun q hq hrun => hrunning q (h.held_of_running q hq hrun) hrun
    handles_eq := by
      intro q hq
      have hh := hhandles q hq
      rw [h.handles_eq q hq] at hh
      change (store.get q).handles = held.count q + s.copies q
      omega
    copies_pos := by
      intro q hq hstage hpend
      unfold IsPending at hpend
      rw [houtcome] at hpend
      exact h.copies_pos q (hheld q hq) hstage hpend
    left_of_failed := by
      intro q hstage hpend
      unfold IsPending at hpend
      rw [houtcome] at hpend
      exact h.left_of_failed q hstage hpend }

/-- Copying a handle keeps a scene sound. -/
theorem share (h : Sound n s) {p : PromiseId} (hp : p ∈ s.held) :
    Sound n { s with store := s.store.hold p, held := p :: s.held } := by
  apply h.rehold (Promises.size_hold _ _) (fun q => Promises.outcome_hold _ _ _)
  · intro q hq
    rcases List.mem_cons.mp hq with rfl | hq
    · exact hp
    · exact hq
  · intro q hq _
    exact List.mem_cons_of_mem _ hq
  · exact fun q hq => s.store.handles_hold_add_count p s.held (h.lt_size hq)

/-- Giving up a handle on the promise of a call that has returned keeps a scene sound. -/
theorem drop (h : Sound n s) {p : PromiseId} (hreturned : (s.stage p).isReturned = true)
    (hp : p ∈ s.held) :
    Sound n { s with store := s.store.release p, held := s.held.erase p } := by
  apply h.rehold (Promises.size_release _ _) (fun q => Promises.outcome_release _ _ _)
  · intro q hq
    exact List.mem_of_mem_erase hq
  · intro q hq hrun
    apply (List.mem_erase_of_ne _).mpr hq
    rintro rfl
    rw [hreturned] at hrun
    cases hrun
  · intro q hq
    apply s.store.handles_release_add_count hp (h.lt_size hq)
    rw [h.handles_eq q hq]
    exact Nat.le_add_right _ _

/-! ### Every act -/

/-- Every act keeps a scene sound until the numbers come round. -/
theorem after (h : Sound n s) (a : Act) (hlt : n + a.isDraw.toNat < 2 ^ 64) :
    Sound (n + a.isDraw.toNat) (s.after a) := by
  cases a with
  | draw => exact h.draw hlt
  | file p =>
    simp only [Scene.after]
    split
    · next hp => exact h.file hp
    · exact h
  | look p =>
    simp only [Scene.after]
    split
    · next hp => exact h.look hp
    · exact h
  | spawn p =>
    simp only [Scene.after]
    split
    · next hp => exact h.goOn hp (.inl rfl)
    · exact h
  | refuse p f =>
    simp only [Scene.after]
    split
    · next hp => exact h.goOn hp (.inr ⟨f, rfl⟩)
    · exact h
  | giveUp p =>
    simp only [Scene.after]
    split
    · next hp => exact h.giveUp hp
    · exact h
  | sentOn p c =>
    simp only [Scene.after]
    split
    · next hp => exact h.sentOn hp c
    · exact h
  | fail p f =>
    simp only [Scene.after]
    split
    · exact h.finish _ _
    · exact h
  | received frame => exact h.received frame
  | lose c => exact h.lose c
  | settle entry =>
    simp only [Scene.after]
    split
    · next hm => exact h.settle hm
    · exact h
  | close =>
    simp only [Scene.after]
    split
    · next hidle =>
      exact h.comeTo (fun _ => h.left_nil (by rw [hidle]; rfl)) (fun hc => by cases hc)
    · exact h
  | release c =>
    simp only [Scene.after]
    split
    · next hmarked =>
      exact h.takeOutOwn (h.left_nil (by rw [hmarked]; rfl)) _ rfl (fun hc => by cases hc)
    · exact h
  | drain =>
    simp only [Scene.after]
    split
    · next hc => exact h.takeOutOwn hc.2 _ rfl fun _ _ => rfl
    · exact h
  | settleOwn =>
    simp only [Scene.after]
    split
    · next hleft => exact h.settleOwn hleft
    · exact h
  | leave =>
    simp only [Scene.after]
    split
    · next hc => exact h.comeTo (fun _ => hc.2) (fun _ => by rw [hc.1]; rfl)
    · exact h
  | complete p o =>
    simp only [Scene.after]
    split
    · exact h.complete p o
    · exact h
  | share p =>
    simp only [Scene.after]
    split
    · next hp => exact h.share hp.2
    · exact h
  | drop p =>
    simp only [Scene.after]
    split
    · next hp => exact h.drop hp.1 hp.2
    · exact h

/-- Every run keeps a scene sound until the numbers come round. -/
theorem run (h : Sound n s) (acts : List Act) (hlt : n + acts.countP Act.isDraw < 2 ^ 64) :
    Sound (n + acts.countP Act.isDraw) (s.run acts) := by
  induction acts generalizing n s with
  | nil => exact h
  | cons a rest ih =>
    have hcount : n + (a :: rest).countP Act.isDraw =
        n + a.isDraw.toNat + rest.countP Act.isDraw := by
      rw [List.countP_cons, Nat.add_assoc, Nat.add_comm (List.countP _ _)]
      cases a.isDraw <;> rfl
    rw [hcount] at hlt ⊢
    exact ih (h.after a (Nat.lt_of_le_of_lt (Nat.le_add_right _ _) hlt)) hlt

end Sound

/-- The scene of a new client stays sound through every run of fewer than `2 ^ 64` requests. -/
theorem sound_ofActs {acts : List Act} (hlt : acts.countP Act.isDraw < 2 ^ 64) :
    Sound (acts.countP Act.isDraw) (ofActs acts) := by
  have h := sound_empty.run acts (by rwa [Nat.zero_add])
  rwa [Nat.zero_add] at h

end Scene

end Switchboard.Client
