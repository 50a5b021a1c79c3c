import Switchboard.Board.Duties
import Switchboard.Proofs.Board.Lasting
import Switchboard.Proofs.Registry.Membership

/-!
# Calls of a registry that fail

Registering an address, taking it back and looking it up each change several things in turn. A call
that fails has changed none that last: the coordinator with its log, what the registry has
registered, its cache, the keys that were looked up and who reads them again. A look-up that
fails takes the gate of its key out again, and it does so even if another look-up made the gate.
-/

namespace Switchboard

namespace Registry

variable (registry : Registry) (key : String)

end Registry

namespace Op

open Routine Board

variable {r : Nat} {a : Address} {key : String} {steps : List (Board × Board)} {f : Failure}
  {b b' : Board}

/-- Changes what a registry has in its coordinator, and waits until its cache is written. -/
def amend (r : Nat)
    (change : Membership → Coordinator → Cache → Outcome Unit × Membership × Coordinator × Cache) :
    Op (Outcome Unit) := do
  let cache ← look fun b => (b.registry r).cache
  match ← savingChanges cache fun b => b.changeMembership r change with
  | .error f => pure (.error f)
  | .ok () =>
    let _ ← saved cache
    pure (.ok ())

private theorem register_eq : register r a = amend r fun m c cache => m.register c cache a := rfl

private theorem unregister_eq :
    unregister r a = amend r fun m c cache => m.unregister c cache a := rfl

/-- A change that fails only where it changes nothing. -/
theorem alike_of_trail_amend
    {change : Membership → Coordinator → Cache → Outcome Unit × Membership × Coordinator × Cache}
    (hchange : ∀ m c cache f, (change m c cache).1 = .error f →
      (change m c cache).2 = (m, c, cache))
    (h : Trail (amend r change) steps (.error f)) : ∀ step ∈ steps, step.1.Alike r step.2 := by
  simp only [amend, trail_bind_iff, trail_look_iff] at h
  obtain ⟨_, _, _, ⟨looked, rfl, rfl⟩, ⟨outcome, first, rest, hfirst, hrest, rfl⟩, rfl⟩ := h
  cases outcome with
  | ok done =>
    obtain ⟨_, _, _, -, hpure, -⟩ := trail_bind_iff.mp hrest
    cases (trail_pure_iff.mp hpure).2
  | error f' =>
    obtain ⟨rfl, hf⟩ := trail_pure_iff.mp hrest
    obtain ⟨before, changed, again, rest, hanswer, hrest, rfl⟩ :=
      trail_savingChanges (overlooks_alike (r := r)) hfirst
    rw [List.append_nil, changeMembership_of_same (hchange _ _ _ f' hanswer.symm)]
    simp only [List.singleton_append, List.forall_mem_cons]
    exact ⟨.refl looked, .refl before, .refl changed, .refl again, hrest⟩

/-- A look-up past its gate that fails has found the key missing and asked in vain. -/
theorem alike_of_trail_discoverInTurn (h : Trail (discoverInTurn r key) steps (.error f)) :
    ∀ step ∈ steps, step.1.Alike r step.2 := by
  simp only [discoverInTurn, trail_bind_iff, trail_look_iff] at h
  obtain ⟨_, _, _, ⟨looked, rfl, rfl⟩, ⟨cached, _, rest, ⟨again, rfl, -⟩, hrest, rfl⟩, rfl⟩ := h
  have hasking : ∀ step ∈ rest, step.1.Alike r step.2 := by
    cases cached with
    | some found => cases (trail_pure_iff.mp hrest).2
    | none =>
      obtain ⟨outcome, _, _, hdiscover, hpure, rfl⟩ := trail_bind_iff.mp hrest
      cases outcome with
      | ok found =>
        obtain ⟨_, _, _, -, hpure, -⟩ := trail_bind_iff.mp hpure
        cases (trail_pure_iff.mp hpure).2
      | error _ =>
        obtain ⟨rfl, -⟩ := trail_pure_iff.mp hpure
        rw [List.append_nil]
        exact keeps_discover overlooks_alike _ _ hdiscover
  intro step hstep
  rcases List.mem_cons.mp hstep with rfl | hstep
  · exact .refl looked
  rcases List.mem_cons.mp hstep with rfl | hstep
  · exact .refl again
  · exact hasking step hstep

/-- What a look-up of a missing key does that fails: it takes the gate of the key, changes nothing
that lasts, and takes the gate out again. -/
theorem trail_discoverOnce (h : Trail (discoverOnce r key) steps (.error f)) :
    ∃ (taken : Board) (asking : List (Board × Board)) (asked : Board),
      (∀ step ∈ asking, step.1.Alike r step.2) ∧
        steps = (taken, taken.onRegistry r fun _ => ((taken.registry r).gateOf key).2) ::
          asking ++ [(asked, asked.onRegistry r fun registry =>
            registry.forgetGate key ((taken.registry r).gateOf key).1)] := by
  simp only [discoverOnce, trail_bind_iff, trail_step_iff, trail_through_iff, trail_modify_iff] at h
  obtain ⟨_, _, _, ⟨taken, rfl, rfl⟩, ⟨found, asking, _, hasking,
    ⟨_, _, _, ⟨asked, rfl⟩, hpure, rfl⟩, rfl⟩, rfl⟩ := h
  obtain ⟨rfl, rfl⟩ := trail_pure_iff.mp hpure
  exact ⟨taken, asking, asked, alike_of_trail_discoverInTurn hasking, rfl⟩

/-- Takes a note of the key of a query whose addresses were found. -/
def noting (r : Nat) (query : Address) : Outcome (List Address) → Op (Outcome (List Address))
  | .error f => pure (.error f)
  | .ok found => do
    modify fun b => b.onRegistry r fun registry =>
      { registry with lookedUp := registry.lookedUp.insert query.serviceKey }
    ensureRefresher r
    pure (.ok (Address.ofNode query found))

private theorem lookUp_eq (query : Address) :
    lookUp r query =
      look (fun b => (b.cache (b.registry r).cache).addresses query.serviceKey) >>= fun cached =>
        (match cached with
          | some cached => pure (.ok cached)
          | none => discoverOnce r query.serviceKey) >>= noting r query := by
  refine congrArg (look _ >>= ·) (funext fun cached => ?_)
  cases cached with
  | none => exact congrArg (discoverOnce r _ >>= ·) (funext fun found => by cases found <;> rfl)
  | some cached => rfl

/-- A look-up that fails has missed the cache. -/
theorem trail_lookUp (h : Trail (lookUp r a) steps (.error f)) :
    ∃ missed rest, Trail (discoverOnce r a.serviceKey) rest (.error f) ∧
      steps = (missed, missed) :: rest := by
  simp only [lookUp_eq, trail_bind_iff, trail_look_iff] at h
  obtain ⟨cached, _, _, ⟨missed, rfl, -⟩, ⟨found, rest, _, hfound, hnoting, rfl⟩, rfl⟩ := h
  cases found with
  | ok found =>
    obtain ⟨_, _, _, -, hnoting, -⟩ := trail_bind_iff.mp hnoting
    obtain ⟨_, _, _, -, hpure, -⟩ := trail_bind_iff.mp hnoting
    cases (trail_pure_iff.mp hpure).2
  | error f' =>
    obtain ⟨rfl, hf⟩ := trail_pure_iff.mp hnoting
    cases hf
    rw [List.append_nil]
    cases cached with
    | some cached => cases (trail_pure_iff.mp hfound).2
    | none => exact ⟨missed, rest, hfound, rfl⟩

/-- A call about an address that fails, with the steps that it took. -/
inductive FailedCall (r : Nat) (a : Address) (steps : List (Board × Board)) : Prop where
  /-- The address is not registered. -/
  | register {f : Failure} (h : Trail (register r a) steps (.error f))
  /-- It is not taken back. -/
  | unregister {f : Failure} (h : Trail (unregister r a) steps (.error f))
  /-- It is not found. -/
  | lookUp {f : Failure} (h : Trail (lookUp r a) steps (.error f))

/-- A call that fails changes nothing that lasts in steps that leave the gates as they are, but for
one that takes the gate of its key at first and one that takes it out again at last. -/
theorem FailedCall.cases (h : FailedCall r a steps) :
    (∀ step ∈ steps, step.1.Alike r step.2) ∨
      ∃ (missed taken : Board) (asking : List (Board × Board)) (asked : Board),
        (∀ step ∈ asking, step.1.Alike r step.2) ∧
          steps = (missed, missed) ::
            (taken, taken.onRegistry r fun _ => ((taken.registry r).gateOf a.serviceKey).2) ::
            asking ++ [(asked, asked.onRegistry r fun registry =>
              registry.forgetGate a.serviceKey ((taken.registry r).gateOf a.serviceKey).1)] := by
  cases h with
  | register h =>
    rw [register_eq] at h
    refine .inl (alike_of_trail_amend (fun m c cache f hf => ?_) h)
    rcases m.register_cases c cache a with ⟨_, -, -, hok⟩ | ⟨f', herror⟩
    · rw [hok] at hf
      cases hf
    · rw [herror]
  | unregister h =>
    rw [unregister_eq] at h
    refine .inl (alike_of_trail_amend (fun m c cache f hf => ?_) h)
    rcases m.unregister_cases c cache a with ⟨_, -, -, hok⟩ | ⟨f', herror⟩
    · rw [hok] at hf
      cases hf
    · rw [herror]
  | lookUp h =>
    obtain ⟨missed, rest, hrest, rfl⟩ := trail_lookUp h
    obtain ⟨taken, asking, asked, hasking, rfl⟩ := trail_discoverOnce hrest
    exact .inr ⟨missed, taken, asking, asked, hasking, rfl⟩

/-- A board whose one registry is a member with a session that lost its connection. -/
def cutOff : Board where
  coordinator := { sessions := (∅ : Std.ExtTreeMap SessionId SessionState).insert 1 .disconnected }
  caches := #[{}]
  registries := #[{ backend := .member { session := 1 } 1 }]

end Op

end Switchboard
