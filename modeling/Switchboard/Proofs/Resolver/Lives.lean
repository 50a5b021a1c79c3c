import Mathlib.Data.List.Nodup
import Mathlib.Data.List.Perm.Basic
import Switchboard.Proofs.Resolver.Invokers

/-!
# The lives of invokers

A scene is a resolver with what it has let go of. Finds and closes take turns in any order; what
one of them lets go of is destroyed by and by, while others go on. Every invoker that was built is
in the resolver, or on its way out, or destroyed, and nowhere twice; it leaves the resolver just
when no key holds its address any more.
-/

namespace Switchboard.Resolver

variable {ι : Type}

/-- One critical section of a find or a close, or the destruction of one invoker. -/
inductive Act where
  /-- A find takes over what became of its look-up. -/
  | find (key : String) (outcome : Outcome (List Address))
  /-- The resolver is closed. -/
  | close
  /-- One of the invokers that were let go is destroyed. -/
  | destroy (place : Nat)

/-- A resolver with the invokers that it has let go of. -/
structure Scene (ι : Type) where
  /-- The resolver. -/
  resolver : Resolver ι := {}
  /-- How often it has asked for a new invoker. -/
  asked : Nat := 0
  /-- The invokers that were let go and are not destroyed yet. -/
  doomed : List ι := []
  /-- The invokers that were destroyed. -/
  destroyed : List ι := []

namespace Scene

/-- What a find answers, and the scene behind its critical section. -/
def find (answers : Nat → Outcome ι) (s : Scene ι) (key : String)
    (outcome : Outcome (List Address)) : Outcome (List ι) × Scene ι :=
  match (s.resolver.answer (ask answers) key outcome).run s.asked with
  | ((.error f, resolver), asked) => (.error f, { s with resolver, asked })
  | ((.ok (found, evicted), resolver), asked) =>
    (.ok found, { s with resolver, asked, doomed := s.doomed ++ evicted })

/-- The scene after an act. -/
def after (answers : Nat → Outcome ι) (s : Scene ι) : Act → Scene ι
  | .find key outcome => (s.find answers key outcome).2
  | .close =>
    { s with resolver := s.resolver.clear.2, doomed := s.doomed ++ s.resolver.clear.1 }
  | .destroy place =>
    match s.doomed[place]? with
    | some i => { s with doomed := s.doomed.eraseIdx place, destroyed := s.destroyed ++ [i] }
    | none => s

/-- The scene after a list of acts. -/
def run (answers : Nat → Outcome ι) (s : Scene ι) (acts : List Act) : Scene ι :=
  acts.foldl (after answers) s

/-- The invokers of addresses that had one in one scene and have none in another. -/
def gone (s s' : Scene ι) : List ι :=
  (s.resolver.invokers.filter fun entry => (s'.resolver.invoker? entry.1).isNone).map Prod.snd

/-- Each address has one invoker at most, and has one just if some key holds it; and whatever was
built is somewhere, once. -/
structure Sound (answers : Nat → Outcome ι) (s : Scene ι) : Prop where
  distinct : s.resolver.Distinct
  isSome_iff : ∀ a, (s.resolver.invoker? a).isSome = s.resolver.isHeld a
  accounted : (s.destroyed ++ s.doomed ++ s.resolver.invokers.map Prod.snd).Perm
    (built answers s.asked)

end Scene

/-! ### Taking over what was found -/

/-- The resolver that remembers for a key that certain addresses were served. -/
def remember (r : Resolver ι) (key : String) (served : List (Address × ι)) : Resolver ι :=
  { r with byKey := r.byKey.insert key (served.map Prod.fst) }

/-- What is served is held, and so is what other keys hold. -/
theorem isHeld_remember {r : Resolver ι} {key : String} {served : List (Address × ι)}
    {a : Address} : (r.remember key served).isHeld a = true →
      (∃ entry, entry ∈ served ∧ (entry.1 == a) = true) ∨ r.isHeld a = true := by
  rw [isHeld_iff]
  rintro ⟨key', addresses, hkey, b, hb, hsame⟩
  rw [remember, Std.ExtTreeMap.getElem?_insert] at hkey
  split at hkey
  · cases hkey
    obtain ⟨entry, hentry, rfl⟩ := List.mem_map.mp hb
    exact .inl ⟨entry, hentry, hsame⟩
  · exact .inr (isHeld_iff.mpr ⟨key', addresses, hkey, b, hb, hsame⟩)

private theorem isHeld_remember_of_mem {r : Resolver ι} {key : String} {served : List (Address × ι)}
    {entry : Address × ι} (h : entry ∈ served) :
    (r.remember key served).isHeld entry.1 = true := by
  refine isHeld_iff.mpr ⟨key, served.map Prod.fst, ?_, entry.1, List.mem_map.mpr ⟨entry, h, rfl⟩,
    Address.beq_self entry.1⟩
  exact Std.ExtTreeMap.getElem?_insert_self

namespace Scene

variable {answers : Nat → Outcome ι} {s : Scene ι}

/-- A find whose look-up failed fails, and changes nothing. -/
theorem find_error (s : Scene ι) (key : String) (f : Failure) :
    s.find answers key (.error f) = (.error f, s) := rfl

/-- A find whose look-up succeeded serves the addresses and lets go of what no key holds any
more. -/
theorem exists_find_ok (answers : Nat → Outcome ι) (s : Scene ι) (key : String)
    (addresses : List Address) : ∃ served r n,
      Obtains answers s.resolver s.asked addresses served r n ∧
      s.find answers key (.ok addresses) = (.ok (served.map Prod.snd), { s with
        resolver := (r.remember key served).evict.2
        asked := n
        doomed := s.doomed ++ (r.remember key served).evict.1 }) := by
  obtain ⟨served, r, n, hrun, h⟩ := exists_obtains answers addresses s.resolver s.asked
  refine ⟨served, r, n, h, ?_⟩
  have hanswer : (s.resolver.answer (ask answers) key (.ok addresses)).run s.asked =
      ((.ok (served.map Prod.snd, (r.remember key served).evict.1),
        (r.remember key served).evict.2), n) := by
    simp only [answer, resolve, StateT.run_bind, hrun]
    rfl
  simp only [find, hanswer]

section Remember

variable {key : String} {addresses : List Address} {served : List (Address × ι)} {r : Resolver ι}
  {n : Nat}

/-- Whatever is held behind a find has an invoker. -/
theorem isSome_of_isHeld_remember (hs : ∀ a, (s.resolver.invoker? a).isSome = s.resolver.isHeld a)
    (h : Obtains answers s.resolver s.asked addresses served r n) {a : Address}
    (ha : (r.remember key served).isHeld a = true) : (r.invoker? a).isSome = true := by
  rcases isHeld_remember ha with ⟨entry, hentry, hsame⟩ | hold
  · rw [← r.invoker?_congr hsame, h.has entry hentry]
    rfl
  · have hbefore : s.resolver.isHeld a = true := by
      rw [isHeld_iff] at hold ⊢
      rwa [h.byKey_eq] at hold
    rw [← hs] at hbefore
    obtain ⟨i, hi⟩ := Option.isSome_iff_exists.mp hbefore
    obtain ⟨new, hnew, -, -⟩ := h.grown
    rw [invoker?_of_append hnew hi]
    rfl

/-- Behind a find an address has an invoker just if it is held. -/
theorem isSome_evict_remember (hs : ∀ a, (s.resolver.invoker? a).isSome = s.resolver.isHeld a)
    (h : Obtains answers s.resolver s.asked addresses served r n) (a : Address) :
    ((r.remember key served).evict.2.invoker? a).isSome =
      (r.remember key served).isHeld a := by
  rw [invoker?_evict]
  split
  · next hheld =>
    rw [hheld]
    exact isSome_of_isHeld_remember hs h hheld
  · next hheld => simpa using hheld

/-- An invoker that a find hands out stays. -/
theorem invoker?_evict_remember_of_mem
    (h : Obtains answers s.resolver s.asked addresses served r n) {a : Address} {i : ι}
    (hm : (a, i) ∈ served) :
    (r.remember key served).evict.2.invoker? a = some i := by
  rw [invoker?_evict, if_pos (isHeld_remember_of_mem hm)]
  exact h.has (a, i) hm

/-- What a find lets go of was there before, for an address that has no invoker any more. -/
theorem evict_remember_fst (hs : ∀ a, (s.resolver.invoker? a).isSome = s.resolver.isHeld a)
    (h : Obtains answers s.resolver s.asked addresses served r n) :
    (r.remember key served).evict.1 = (s.resolver.invokers.filter fun entry =>
      ((r.remember key served).evict.2.invoker? entry.1).isNone).map Prod.snd := by
  obtain ⟨new, hnew, -, hsub⟩ := h.grown
  have hnone : new.filter (fun entry => !(r.remember key served).isHeld entry.1) = [] := by
    rw [List.filter_eq_nil_iff]
    intro entry hm
    simp [isHeld_remember_of_mem (hsub hm)]
  have hinvokers : (r.remember key served).invokers = s.resolver.invokers ++ new := hnew
  rw [evict_fst, hinvokers, List.filter_append, hnone, List.append_nil]
  congr 2
  funext entry
  rw [← Option.not_isSome, isSome_evict_remember hs h]

end Remember

/-- A find keeps a scene sound. -/
theorem Sound.find (h : s.Sound answers) (key : String) (outcome : Outcome (List Address)) :
    (s.find answers key outcome).2.Sound answers := by
  cases outcome with
  | error f => exact h
  | ok addresses =>
    obtain ⟨served, r, n, hobtains, hfind⟩ := exists_find_ok answers s key addresses
    obtain ⟨new, hnew, hbuilt, -⟩ := hobtains.grown
    rw [hfind]
    constructor
    · exact Distinct.evict (r := r.remember key served) (hobtains.distinct h.distinct)
    · exact isSome_evict_remember h.isSome_iff hobtains
    · have hsplit := (r.remember key served).perm_evict
      have hall : (r.remember key served).invokers = s.resolver.invokers ++ new := hnew
      rw [hall, List.map_append] at hsplit
      rw [hbuilt]
      refine List.Perm.trans ?_ (h.accounted.append_right (new.map Prod.snd))
      simpa only [List.append_assoc] using hsplit.append_left (s.destroyed ++ s.doomed)

private theorem perm_destroy {doomed : List ι} {place : Nat} {i : ι} (h : doomed[place]? = some i)
    (destroyed : List ι) :
    (destroyed ++ [i] ++ doomed.eraseIdx place).Perm (destroyed ++ doomed) := by
  obtain ⟨hlt, rfl⟩ := List.getElem?_eq_some_iff.mp h
  rw [List.append_assoc]
  exact (List.getElem_cons_eraseIdx_perm hlt).append_left destroyed

/-- An act keeps a scene sound. -/
theorem Sound.after (h : s.Sound answers) (act : Act) : (s.after answers act).Sound answers := by
  cases act with
  | find key outcome => exact h.find key outcome
  | close =>
    refine ⟨List.Pairwise.nil, fun a => ?_, ?_⟩
    · simp [Scene.after, clear, invoker?, isHeld]
    · have haccounted := h.accounted
      simpa [Scene.after, clear] using haccounted
  | destroy place =>
    simp only [Scene.after]
    split
    · next i hi =>
      exact ⟨h.distinct, h.isSome_iff,
        ((perm_destroy hi s.destroyed).append_right _).trans h.accounted⟩
    · exact h

/-- A new resolver is sound. -/
theorem sound_empty (answers : Nat → Outcome ι) : Sound answers {} := by
  constructor
  · exact List.Pairwise.nil
  · simp [invoker?, isHeld]
  · simp [built]

/-- Every run keeps a scene sound. -/
theorem Sound.run (h : s.Sound answers) (acts : List Act) : (s.run answers acts).Sound answers := by
  induction acts generalizing s with
  | nil => exact h
  | cons act rest ih => exact ih (h.after act)

/-! ### What becomes of one invoker -/

private theorem perm_of_resolver_eq {s s' : Scene ι} (h : s'.resolver = s.resolver)
    (hperm : (s'.destroyed ++ s'.doomed).Perm (s.destroyed ++ s.doomed)) :
    (s'.destroyed ++ s'.doomed).Perm (s.destroyed ++ s.doomed ++ s.gone s') := by
  have hnone : s.gone s' = [] := by
    rw [gone, List.map_eq_nil_iff, List.filter_eq_nil_iff]
    intro entry hm
    simpa [h, Option.isSome_iff_ne_none] using isSome_invoker?_of_mem hm
  rw [hnone, List.append_nil]
  exact hperm

/-- What leaves a resolver in an act is on its way out or destroyed behind it, and nothing else
comes there. -/
theorem Sound.perm_after (h : s.Sound answers) (act : Act) :
    ((s.after answers act).destroyed ++ (s.after answers act).doomed).Perm
      (s.destroyed ++ s.doomed ++ s.gone (s.after answers act)) := by
  cases act with
  | find key outcome =>
    cases outcome with
    | error f => exact perm_of_resolver_eq rfl (.refl _)
    | ok addresses =>
      obtain ⟨served, r, n, hobtains, hfind⟩ := exists_find_ok answers s key addresses
      simp only [Scene.after, hfind, gone, ← evict_remember_fst h.isSome_iff hobtains,
        List.append_assoc, List.Perm.refl]
  | close =>
    have hnone : ∀ a, (Resolver.invoker? (ι := ι) {} a).isNone = true := fun _ => rfl
    simp only [Scene.after, gone, clear, hnone, List.filter_true, List.append_assoc,
      List.Perm.refl]
  | destroy place =>
    simp only [Scene.after]
    split
    · next i hi => exact perm_of_resolver_eq rfl (perm_destroy hi s.destroyed)
    · exact perm_of_resolver_eq rfl (.refl _)

/-- An address that still has an invoker after an act has the one that it had. -/
theorem invoker?_after (act : Act) {a : Address} {i : ι} (hi : s.resolver.invoker? a = some i)
    (hstill : ((s.after answers act).resolver.invoker? a).isSome = true) :
    (s.after answers act).resolver.invoker? a = some i := by
  cases act with
  | find key outcome =>
    cases outcome with
    | error f => exact hi
    | ok addresses =>
      obtain ⟨served, r, n, hobtains, hfind⟩ := exists_find_ok answers s key addresses
      obtain ⟨new, hnew, -, -⟩ := hobtains.grown
      simp only [Scene.after, hfind, invoker?_evict] at hstill ⊢
      split at hstill
      · next hheld =>
        rw [if_pos hheld]
        exact invoker?_of_append hnew hi
      · cases hstill
  | close => cases hstill
  | destroy place =>
    simp only [Scene.after]
    split <;> exact hi

/-- As long as an address has an invoker, it has the same one. -/
theorem invoker?_run {acts : List Act} {a : Address} {i : ι} (hi : s.resolver.invoker? a = some i)
    (hstays : ∀ sofar, sofar <+: acts →
      ((s.run answers sofar).resolver.invoker? a).isSome = true) :
    (s.run answers acts).resolver.invoker? a = some i := by
  induction acts generalizing s with
  | nil => exact hi
  | cons act rest ih =>
    have hfirst := hstays [act] (List.prefix_cons_inj act |>.mpr List.nil_prefix)
    refine ih (invoker?_after act hi hfirst) fun sofar hsofar => ?_
    exact hstays (act :: sofar) (List.prefix_cons_inj act |>.mpr hsofar)

/-- As many destructions as there are invokers on their way out destroy them all. -/
theorem run_replicate_destroy (answers : Nat → Outcome ι) (s : Scene ι) :
    s.run answers (List.replicate s.doomed.length (.destroy 0)) =
      { s with doomed := [], destroyed := s.destroyed ++ s.doomed } := by
  obtain ⟨resolver, asked, doomed, destroyed⟩ := s
  simp only [run]
  induction doomed generalizing destroyed with
  | nil => simp
  | cons i rest ih =>
    rw [List.length_cons, List.replicate_succ, List.foldl_cons]
    simp only [Scene.after, List.getElem?_cons_zero, List.eraseIdx_cons_zero]
    rw [ih, List.append_assoc]
    rfl

section Fresh

variable (hfresh : ∀ m n i, answers m = .ok i → answers n = .ok i → m = n)

include hfresh

/-- If no two answers are the same invoker, none was built twice. -/
theorem nodup_built (n : Nat) : (built answers n).Nodup := by
  refine List.Nodup.filterMap ?_ List.nodup_range
  have hok : ∀ k i, i ∈ (answers k).toOption → answers k = .ok i := by
    intro k i hi
    cases hk : answers k with
    | ok j =>
      rw [hk] at hi
      exact congrArg _ (Option.some_inj.mp hi)
    | error f =>
      rw [hk] at hi
      cases hi
  exact fun m n i hm hn => hfresh m n i (hok m i hm) (hok n i hn)

/-- An invoker that is in the resolver is not on its way out. -/
theorem Sound.not_mem_of_invoker? (h : s.Sound answers) {a : Address} {i : ι}
    (hi : s.resolver.invoker? a = some i) : i ∉ s.destroyed ∧ i ∉ s.doomed := by
  obtain ⟨b, hb, -⟩ := exists_mem_of_invoker? hi
  have hin : i ∈ s.resolver.invokers.map Prod.snd := List.mem_map.mpr ⟨_, hb, rfl⟩
  have hnodup := h.accounted.nodup_iff.mpr (nodup_built hfresh s.asked)
  have hapart := (List.nodup_append.mp hnodup).2.2
  exact ⟨fun hm => hapart i (List.mem_append_left _ hm) i hin rfl,
    fun hm => hapart i (List.mem_append_right _ hm) i hin rfl⟩

end Fresh

/-- What a find makes of a list of addresses: the invokers that it answers with are those that the
addresses have behind it. -/
theorem Sound.exists_find_ok (h : s.Sound answers) (key : String) (addresses : List Address) :
    ∃ served s', s.find answers key (.ok addresses) = (.ok (served.map Prod.snd), s') ∧
      s'.Sound answers ∧ Serves answers s.resolver.invoker? s.asked addresses served s'.asked ∧
        ∀ a i, (a, i) ∈ served → s'.resolver.invoker? a = some i := by
  obtain ⟨served, r, n, hobtains, hfind⟩ := Scene.exists_find_ok answers s key addresses
  have hsound := h.find key (.ok addresses)
  rw [hfind] at hsound
  exact ⟨served, _, hfind, hsound, hobtains.serves,
    fun _ _ hm => invoker?_evict_remember_of_mem hobtains hm⟩

end Scene

/-- Finds and closes in any order, whatever their look-ups return and whichever invokers can be
built, keep the invokers of a resolver in step with what its keys hold. -/
theorem invokers_kept_in_step {answers : Nat → Outcome ι}
    (hfresh : ∀ m n i, answers m = .ok i → answers n = .ok i → m = n) (acts : List Act) :
    let s := ({} : Scene ι).run answers acts
    -- an address has an invoker just if some key holds it, and never two
    (∀ a, (∃ i, s.resolver.invoker? a = some i) ↔
      ∃ (key : String) (addresses : List Address), s.resolver.byKey[key]? = some addresses ∧
        ∃ b, b ∈ addresses ∧ (b == a) = true) ∧ s.resolver.Distinct ∧
    -- what was built is in one place: destroyed, on its way there, or in the resolver
    (s.destroyed ++ s.doomed ++ s.resolver.invokers.map Prod.snd).Nodup ∧
    (s.destroyed ++ s.doomed ++ s.resolver.invokers.map Prod.snd).Perm
      (built answers s.asked) ∧
    -- it is on its way to be destroyed from when its address has no invoker any more
    (∀ act, ((s.after answers act).destroyed ++ (s.after answers act).doomed).Perm
      (s.destroyed ++ s.doomed ++ s.gone (s.after answers act))) ∧
    s.run answers (List.replicate s.doomed.length (.destroy 0)) =
      { s with doomed := [], destroyed := s.destroyed ++ s.doomed } ∧
    -- a find whose look-up failed changes nothing
    (∀ key f, s.find answers key (.error f) = (.error f, s)) ∧
    -- any other answers with the invokers of the addresses, none of which was let go
    (∀ key addresses, ∃ served s',
      s.find answers key (.ok addresses) = (.ok (served.map Prod.snd), s') ∧
      Serves answers s.resolver.invoker? s.asked addresses served s'.asked ∧
      ∀ a i, (a, i) ∈ served →
        s'.resolver.invoker? a = some i ∧ i ∉ s'.destroyed ∧ i ∉ s'.doomed) ∧
    -- a later one answers with the same, for an address that had an invoker all the time
    ∀ a i later, s.resolver.invoker? a = some i →
      (∀ sofar, sofar <+: later → ((s.run answers sofar).resolver.invoker? a).isSome = true) →
      ∀ key addresses, ∃ (served : List (Address × ι)) (s' : Scene ι),
        (s.run answers later).find answers key (.ok addresses) =
          (.ok (served.map Prod.snd), s') ∧
        ∀ b, b ∈ addresses → (b == a) = true →
          (b, i) ∈ served ∧ ∀ j, (b, j) ∈ served → j = i := by
  intro s
  have h : s.Sound answers := (Scene.sound_empty answers).run acts
  refine ⟨fun a => ?_, h.distinct, h.accounted.nodup_iff.mpr (Scene.nodup_built hfresh _),
    h.accounted, h.perm_after, s.run_replicate_destroy answers, s.find_error,
    fun key addresses => ?_, ?_⟩
  · rw [← isHeld_iff, ← h.isSome_iff, Option.isSome_iff_exists]
  · obtain ⟨served, s', hfind, hsound, hserves, hhas⟩ := h.exists_find_ok key addresses
    exact ⟨served, s', hfind, hserves,
      fun a i hm => ⟨hhas a i hm, hsound.not_mem_of_invoker? hfresh (hhas a i hm)⟩⟩
  · intro a i later hi hstays key addresses
    have hlater : (s.run answers later).Sound answers := h.run later
    have hthen := Scene.invoker?_run hi hstays
    obtain ⟨served, s', hfind, -, hserves, -⟩ := hlater.exists_find_ok key addresses
    refine ⟨served, s', hfind, fun b hb hsame => ?_⟩
    rw [← (s.run answers later).resolver.invoker?_congr hsame] at hthen
    obtain ⟨hmem, heq⟩ := hserves.eq_of_has
      (fun _ _ => (s.run answers later).resolver.invoker?_congr) hthen
    exact ⟨hmem hb, heq⟩

/-- An invoker that two keys share outlives the first of them. The second form of its address is
served with it, an address whose invoker cannot be built is served later, and the end of the other
key is the end of the invoker. -/
theorem invokers_kept_in_step_of_shared :
    let answers : Nat → Outcome Nat := fun n => if n = 1 then .error .connectionClosed else .ok n
    let a : Address := { host := some "a", parameters := .ofList [("x", "1"), ("y", "2")] }
    let a' : Address := { host := some "a", parameters := .ofList [("y", "2"), ("x", "1")] }
    let b : Address := { host := some "b" }
    let acts := [.find "/s" (.ok [a, b]), .find "/t" (.error .connectionClosed),
      .find "/t" (.ok [a', b]), .find "/s" (.ok [])]
    let s := ({} : Scene Nat).run answers acts
    (∀ m n i, answers m = .ok i → answers n = .ok i → m = n) ∧
      s.doomed = [] ∧ s.resolver.invoker? a = some 0 ∧
      (∃ (served : List (Address × Nat)) (s' : Scene Nat),
        s.find answers "/t" (.ok [b, a']) = (.ok (served.map Prod.snd), s') ∧ (a', 0) ∈ served) ∧
      (s.after answers (.find "/t" (.ok [b]))).doomed = [0] := by
  intro answers a a' b acts s
  have hfresh : ∀ m n i, answers m = .ok i → answers n = .ok i → m = n := by
    intro m n i hm hn
    have hok : ∀ k, answers k = .ok i → k = i := by
      intro k hk
      simp only [answers] at hk
      split at hk
      · cases hk
      · exact Except.ok.inj hk
    rw [hok m hm, hok n hn]
  have ha : s.resolver.invoker? a = some 0 := by decide +kernel
  obtain ⟨-, -, -, -, -, -, -, -, hsame⟩ := invokers_kept_in_step hfresh acts
  have hstays : ∀ sofar, sofar <+: ([] : List Act) →
      ((s.run answers sofar).resolver.invoker? a).isSome = true := by
    intro sofar hsofar
    rw [List.prefix_nil.mp hsofar]
    exact Option.isSome_of_eq_some ha
  obtain ⟨served, s', hfind, hserved⟩ := hsame a 0 [] ha hstays "/t" [b, a']
  refine ⟨hfresh, by decide +kernel, ha, ⟨served, s', hfind, ?_⟩, by decide +kernel⟩
  exact (hserved a' (by simp) (by decide +kernel)).1

end Switchboard.Resolver
