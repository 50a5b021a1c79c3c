import Switchboard.Board.Registries
import Switchboard.Proofs.Work.Trails

/-!
# What lasts of a registry

Work on the board changes many things for a while: it begins tasks, counts changes of caches and
takes notes. What lasts of a registry is what its coordinator, its backend and the caches hold, who
listens, and which keys are read again; its gates come and go with look-ups. Having a cache written
and asking a backend leave all of it alone.
-/

namespace Switchboard

namespace Registry

variable (registry : Registry)

/-- A registry but for the gates at which look-ups wait for each other. -/
def lasting : Registry := { registry with gates := ∅, gatesMade := 0 }

private theorem updateMembership_self :
    registry.updateMembership (fun _ => registry.membership) = registry := by
  unfold updateMembership membership membership?
  split
  · next m holders h =>
    obtain ⟨⟩ := registry
    cases h
    rfl
  · rfl

end Registry

namespace Board

variable {r : Nat} {b b' b'' : Board}

/-- Every cache knows the same on two boards. -/
def KnowsAlike (b b' : Board) : Prop := ∀ i, (b'.cache i).entries = (b.cache i).entries

/-- A registry but for its gates is the same on two boards, and so are the coordinator and what the
caches know. -/
structure Agrees (r : Nat) (b b' : Board) : Prop where
  /-- The tree, the log and the sessions. -/
  coordinator : b'.coordinator = b.coordinator
  /-- What is registered and watched, who listens, which keys were looked up, and who reads them
  again. -/
  registry : (b'.registry r).lasting = (b.registry r).lasting
  /-- The texts in every cache. -/
  entries : b.KnowsAlike b'
  /-- How many registries there are. -/
  size : b'.registries.size = b.registries.size

/-- A registry with its gates is the same on two boards, and so is all else that lasts. -/
structure Alike (r : Nat) (b b' : Board) : Prop extends b.Agrees r b' where
  /-- The gates at which look-ups wait for each other. -/
  gates : (b'.registry r).gates = (b.registry r).gates

/-- All that lasts of a registry is the same on two boards, and no cache has gone away. -/
structure Undisturbed (r : Nat) (b b' : Board) : Prop extends b.Alike r b' where
  /-- How many caches there are at least. -/
  caches : b.caches.size ≤ b'.caches.size

/-- A relation between boards that looks neither at who is at work nor at how far caches are
written. -/
structure Overlooks (R : Board → Board → Prop) : Prop where
  /-- It holds of what no cache, no registry and no coordinator tells apart. -/
  aside : ∀ {b b' : Board}, b'.coordinator = b.coordinator → b'.registries = b.registries →
    b'.caches = b.caches → R b b'
  /-- It holds where a cache was changed but for its texts. -/
  cache : ∀ (b : Board) (i : Nat) {α : Type} {f : Cache → α × Cache},
    (∀ c, (f c).2.entries = c.entries) → R b (b.changeCache i f).2

private theorem Overlooks.refl {R : Board → Board → Prop} (h : Overlooks R) (b : Board) : R b b :=
  h.aside rfl rfl rfl

private theorem KnowsAlike.refl (b : Board) : b.KnowsAlike b := fun _ => rfl

/-- What every cache knows stays over two steps if it stays over each. -/
theorem KnowsAlike.trans (h : b.KnowsAlike b') (h' : b'.KnowsAlike b'') : b.KnowsAlike b'' :=
  fun i => (h' i).trans (h i)

/-- A board agrees with itself. -/
theorem Agrees.refl (b : Board) : b.Agrees r b := ⟨rfl, rfl, .refl b, rfl⟩

/-- Boards that agree with one board agree with each other. -/
theorem Agrees.trans (h : b.Agrees r b') (h' : b'.Agrees r b'') : b.Agrees r b'' :=
  ⟨h'.coordinator.trans h.coordinator, h'.registry.trans h.registry,
    h.entries.trans h'.entries, h'.size.trans h.size⟩

/-- A board is like itself. -/
theorem Alike.refl (b : Board) : b.Alike r b := ⟨.refl b, rfl⟩

/-- Boards that are like one board are like each other. -/
theorem Alike.trans (h : b.Alike r b') (h' : b'.Alike r b'') : b.Alike r b'' :=
  ⟨h.toAgrees.trans h'.toAgrees, h'.gates.trans h.gates⟩

/-- Boards that agree have the registry at the same cache. -/
theorem Agrees.cache_eq (h : b.Agrees r b') : (b'.registry r).cache = (b.registry r).cache := by
  have hlasting := congrArg Registry.cache h.registry
  exact hlasting

/-- Where nothing happens, nothing is disturbed. -/
theorem Undisturbed.refl (b : Board) : b.Undisturbed r b := ⟨.refl b, Nat.le_refl _⟩

/-- Equal boards are undisturbed. -/
theorem Undisturbed.of_eq (h : b = b') : b.Undisturbed r b' := h ▸ .refl b

/-- What two steps leave alone, both leave alone together. -/
theorem Undisturbed.trans (h : b.Undisturbed r b') (h' : b'.Undisturbed r b'') :
    b.Undisturbed r b'' :=
  ⟨h.toAlike.trans h'.toAlike, Nat.le_trans h.caches h'.caches⟩

/-- A change of a registry reaches it if it is there. -/
theorem registry_onRegistry_self (b : Board) (r : Nat) (f : Registry → Registry) :
    (b.onRegistry r f).registry r =
      if r < b.registries.size then f (b.registry r) else b.registry r := by
  simp only [registry, onRegistry, Array.getD_eq_getD_getElem?, Array.getElem?_modify, if_true]
  split
  · next h => simp [h]
  · next h => simp [h]

/-- A change of a registry to itself. -/
theorem onRegistry_of_eq {f : Registry → Registry} (h : f (b.registry r) = b.registry r) :
    b.onRegistry r f = b := by
  have hsame : b.registries.modify r f = b.registries := by
    refine Array.ext_getElem? fun i => ?_
    rw [Array.getElem?_modify]
    split
    · next hi =>
      subst hi
      unfold registry at h
      cases hr : b.registries[r]? with
      | none => rfl
      | some registry => simpa [hr] using h
    · rfl
  rw [onRegistry, hsame]

/-- A change of a cache to itself. -/
theorem setIfInBounds_cache (b : Board) (i : Nat) :
    b.caches.setIfInBounds i (b.cache i) = b.caches := by
  refine Array.ext_getElem? fun j => ?_
  rw [Array.getElem?_setIfInBounds]
  split
  · next hij =>
    subst hij
    split
    · next h => simp [cache, h]
    · next h => simp [h]
  · rfl

/-- A change of a membership that comes to nothing leaves the board as it is. -/
theorem changeMembership_of_same {α : Type}
    {f : Membership → Coordinator → Cache → α × Membership × Coordinator × Cache}
    (hf : (f (b.registry r).membership b.coordinator (b.cache (b.registry r).cache)).2 =
      ((b.registry r).membership, b.coordinator, b.cache (b.registry r).cache)) :
    (b.changeMembership r f).2 = b := by
  have hregistry : b.onRegistry r (fun registry => registry.updateMembership fun _ =>
      (b.registry r).membership) = b :=
    onRegistry_of_eq (b.registry r).updateMembership_self
  simp only [changeMembership, hf, hregistry, setIfInBounds_cache]

/-- A change of a cache reaches it if it is there. -/
theorem cache_changeCache {α : Type} (b : Board) (i j : Nat) (f : Cache → α × Cache) :
    (b.changeCache i f).2.cache j =
      if i = j ∧ j < b.caches.size then (f (b.cache i)).2 else b.cache j := by
  simp only [changeCache, cache, Array.getD_eq_getD_getElem?, Array.getElem?_setIfInBounds]
  by_cases hij : i = j
  · subst hij
    by_cases hi : i < b.caches.size <;> simp [hi]
  · simp [hij]

/-- A change of a cache that leaves its texts. -/
theorem alike_changeCache {α : Type} (b : Board) (i : Nat) {f : Cache → α × Cache}
    (hf : ∀ c, (f c).2.entries = c.entries) : b.Alike r (b.changeCache i f).2 := by
  refine ⟨⟨rfl, rfl, fun j => ?_, rfl⟩, rfl⟩
  rw [cache_changeCache]
  split
  · next h => rw [hf, h.1]
  · rfl

/-- Whether boards are alike looks neither at who is at work nor at how far caches are written. -/
theorem overlooks_alike : Overlooks (Alike r) where
  aside hcoordinator hregistries hcaches :=
    ⟨⟨hcoordinator, by rw [registry, hregistries, registry],
      fun i => by rw [Board.cache, hcaches, Board.cache], by rw [hregistries]⟩,
      by rw [registry, hregistries, registry]⟩
  cache b i _ _ := alike_changeCache b i

/-- Whether a board is undisturbed looks neither at who is at work nor at how far caches are
written. -/
theorem overlooks_undisturbed : Overlooks (Undisturbed r) where
  aside hcoordinator hregistries hcaches :=
    ⟨overlooks_alike.aside hcoordinator hregistries hcaches,
      Nat.le_of_eq (congrArg Array.size hcaches.symm)⟩
  cache b i _ _ hf := ⟨alike_changeCache b i hf, Nat.le_of_eq Array.size_setIfInBounds.symm⟩

/-- A change that goes by what a cache knows comes to the same on a board that knows the same. -/
theorem Undisturbed.entries_changeCache {α : Type} {found : Board} {i : Nat}
    {f : Cache → α × Cache} (hbefore : b.Undisturbed r found)
    (hafter : (found.changeCache i f).2.Undisturbed r b') (hi : i < b.caches.size)
    (hf : ∀ c c', c.entries = c'.entries → (f c).2.entries = (f c').2.entries) (j : Nat) :
    (b'.cache j).entries =
      if i = j then (f (b.cache i)).2.entries else (b.cache j).entries := by
  rw [hafter.entries, cache_changeCache]
  by_cases hij : i = j
  · subst hij
    rw [if_pos ⟨rfl, Nat.lt_of_lt_of_le hi hbefore.caches⟩, if_pos rfl]
    exact hf _ _ (hbefore.entries i)
  · rw [if_neg fun h => hij h.1, if_neg hij, hbefore.entries]

/-- A change of a membership changes the cache of the registry along with it. -/
theorem cache_changeMembership {α : Type} (hcache : (b.registry r).cache < b.caches.size)
    (f : Membership → Coordinator → Cache → α × Membership × Coordinator × Cache) :
    (b.changeMembership r f).2.cache (b.registry r).cache =
      (f (b.registry r).membership b.coordinator (b.cache (b.registry r).cache)).2.2.2 := by
  simp [changeMembership, cache, hcache]

/-- A listener that hears something changes no cache. -/
theorem knowsAlike_hear (b : Board) (time : Nat) (notice : Notice) (l : ListenerId) :
    b.KnowsAlike (b.hear time notice l) := by
  have hcaches : (b.hear time notice l).caches = b.caches := by
    unfold hear
    dsimp only
    split
    · rfl
    · split <;> rfl
  intro i
  rw [cache, hcaches, cache]

end Board

namespace Op

open Routine Board

variable {r : Nat} {a : Address} {key : String} {steps : List (Board × Board)} {f : Failure}
  {b b' : Board}

/-! ### Work that changes nothing that lasts -/

section Overlooks

variable {R : Board → Board → Prop} (hR : Overlooks R)

include hR

private theorem keeps_spawn (duty : Duty) : Keeps R (spawn duty) := by
  refine (keeps_look hR.refl _).bind fun isShutDown => ?_
  cases isShutDown with
  | true => exact keeps_pure none
  | false =>
    refine (keeps_begin duty).bind fun task => ?_
    refine Keeps.bind (keeps_modify fun b => ?_) fun _ => keeps_pure (some task)
    exact hR.aside rfl rfl rfl

/-- To have a cache written later on changes nothing that lasts. -/
theorem keeps_saveLater (i : Nat) : Keeps R (saveLater i) := by
  refine (keeps_look hR.refl _).bind fun syncSave => ?_
  cases syncSave with
  | true => exact (keeps_begin _).bind fun _ => keeps_pure ()
  | false =>
    refine (keeps_step fun b => hR.cache b i fun _ => rfl).bind fun wasPending => ?_
    cases wasPending with
    | true => exact keeps_pure ()
    | false =>
      refine (keeps_spawn hR _).bind fun task => ?_
      cases task with
      | some _ => exact keeps_pure ()
      | none => exact keeps_modify fun b => hR.cache b i fun _ => rfl

/-- To ask the backend changes nothing that lasts. -/
theorem keeps_discover : Keeps R (discover r key) := by
  refine (keeps_look hR.refl _).bind fun backend => ?_
  cases backend with
  | member m _ => exact keeps_look hR.refl _
  | standIn answers =>
    refine Keeps.bind (keeps_modify fun b => ?_) fun _ => ?_
    · exact hR.aside rfl rfl rfl
    · split
      · exact keeps_pure _
      · exact (keeps_sleep hR.refl _).bind fun _ => keeps_pure _

/-- What changes something and has it saved does so in one step, and all that follows changes
nothing that lasts. -/
theorem trail_savingChanges {α : Type} {i : Nat} {change : Board → α × Board} {answer : α}
    (h : Trail (savingChanges i change) steps answer) :
    ∃ looked changed again rest, answer = (change changed).1 ∧
      (∀ step ∈ rest, R step.1 step.2) ∧
      steps = (looked, looked) :: (changed, (change changed).2) :: (again, again) :: rest := by
  simp only [savingChanges, trail_bind_iff, trail_look_iff, trail_step_iff] at h
  obtain ⟨_, _, _, ⟨looked, rfl, rfl⟩, ⟨_, _, _, ⟨changed, rfl, rfl⟩,
    ⟨_, _, rest, ⟨again, rfl, rfl⟩, hrest, rfl⟩, rfl⟩, rfl⟩ := h
  split at hrest
  · obtain ⟨rfl, rfl⟩ := trail_pure_iff.mp hrest
    exact ⟨looked, changed, again, [], rfl, List.forall_mem_nil _, rfl⟩
  · obtain ⟨_, _, _, hsave, hpure, rfl⟩ := trail_bind_iff.mp hrest
    obtain ⟨rfl, rfl⟩ := trail_pure_iff.mp hpure
    rw [List.append_nil]
    exact ⟨looked, changed, again, _, rfl, keeps_saveLater hR i _ _ hsave, rfl⟩

/-- Where others leave alone what lasts, what changes something and has it saved finds it as it was,
and its change is all that becomes of it. -/
theorem leads_savingChanges (htrans : ∀ {b b' b''}, R b b' → R b' b'' → R b b'') {α : Type}
    {i : Nat} {change : Board → α × Board} {answer : α}
    (h : Trail (savingChanges i change) steps answer) (hleads : Leads R b steps b') :
    ∃ found, R b found ∧ answer = (change found).1 ∧ R (change found).2 b' := by
  obtain ⟨looked, found, again, rest, hanswer, hrest, rfl⟩ := trail_savingChanges hR h
  obtain ⟨hlooked, hfound, hagain, hleads⟩ := hleads
  exact ⟨found, htrans hlooked hfound, hanswer, htrans hagain (hleads.throughout htrans hrest)⟩

end Overlooks

/-! ### Work that comes to its end by itself -/

private theorem passes_spawn (duty : Duty) : Passes (spawn duty) := by
  refine (passes_look _).bind fun isShutDown => ?_
  cases isShutDown with
  | true => exact passes_pure none
  | false =>
    exact (passes_begin duty).bind fun task => (passes_modify _).bind fun _ => passes_pure _

private theorem passes_saveLater (i : Nat) : Passes (saveLater i) := by
  refine (passes_look _).bind fun syncSave => ?_
  cases syncSave with
  | true => exact (passes_begin _).bind fun _ => passes_pure ()
  | false =>
    refine (passes_step _).bind fun wasPending => ?_
    cases wasPending with
    | true => exact passes_pure ()
    | false =>
      refine (passes_spawn _).bind fun task => ?_
      cases task with
      | some _ => exact passes_pure ()
      | none => exact passes_modify _

/-- A change of a cache that is saved comes to its end alone. -/
theorem passes_savingChanges {α : Type} (i : Nat) (change : Board → α × Board) :
    Passes (savingChanges i change) := by
  refine (passes_look _).bind fun before => (passes_step _).bind fun a =>
    (passes_look _).bind fun after => ?_
  split
  · exact passes_pure a
  · exact (passes_saveLater i).bind fun _ => passes_pure a

/-- Telling a registry a notice comes to its end alone. -/
theorem passes_notify (notice : Notice) : Passes (notify r notice) :=
  passes_now.bind fun _ => (passes_look _).bind fun audience =>
    passes_forM (fun _ => passes_modify _) audience

/-- A backend answers, a stand-in after a while. -/
theorem passes_discover : Passes (discover r key) := by
  refine (passes_look _).bind fun backend => ?_
  cases backend with
  | member m _ => exact passes_look _
  | standIn answers =>
    refine (passes_modify _).bind fun _ => ?_
    split
    · exact passes_pure _
    · exact (passes_sleep _).bind fun _ => passes_pure _

/-! ### What becomes of caches -/

/-- To tell listeners changes no cache. -/
theorem keeps_notify (notice : Notice) : Keeps KnowsAlike (notify r notice) := by
  refine keeps_now.bind fun time => (keeps_look KnowsAlike.refl _).bind fun audience => ?_
  exact keeps_forM (fun l => keeps_modify fun b => b.knowsAlike_hear time notice l) audience

/-- A registry that absorbs something has its cache changed by that alone, where nobody comes
between. -/
theorem entries_of_absorb {b b' : Board} {u : Unit}
    {f : Membership → Coordinator → Cache → List Notice × Membership × Coordinator × Cache}
    (hcache : (b.registry r).cache < b.caches.size) (h : Trail (absorb r f) steps u)
    (hleads : Leads Eq b steps b') :
    (b'.cache (b.registry r).cache).entries =
      (f (b.registry r).membership b.coordinator
        (b.cache (b.registry r).cache)).2.2.2.entries := by
  simp only [absorb, trail_bind_iff, trail_look_iff] at h
  obtain ⟨_, _, _, ⟨looked, rfl, rfl⟩, ⟨notices, _, telling, hsaving, htelling, rfl⟩, rfl⟩ := h
  obtain ⟨before, changed, again, rest, rfl, hrest, rfl⟩ :=
    trail_savingChanges (overlooks_alike (r := r)) hsaving
  obtain ⟨rfl, rfl, rfl, hleads⟩ := hleads
  have hknows : ∀ step ∈ (again, again) :: rest ++ telling, step.1.KnowsAlike step.2 := by
    intro step hstep
    rcases List.mem_append.mp hstep with hsave | htell
    · rcases List.mem_cons.mp hsave with rfl | hsave
      · exact .refl again
      · exact (hrest step hsave).entries
    · exact keeps_forM keeps_notify _ _ _ htelling step htell
  have hend := hleads.keeps KnowsAlike.refl KnowsAlike.trans hknows
  rw [hend, cache_changeMembership hcache]

end Op

end Switchboard
