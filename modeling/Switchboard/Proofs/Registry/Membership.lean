import Switchboard.Proofs.Address.Equality
import Switchboard.Proofs.Registry.Sessions
import Switchboard.Registry.Membership

/-!
# What members do to their coordinators

A member changes its coordinator by puts and deletions in its session alone: registering an address
puts the node of the address, and taking it back deletes the node with all below it. What fails
changes nothing.
-/

namespace Switchboard

namespace Membership

variable (m : Membership)

/-- An address is published by a put at its path. -/
theorem publish_of_ok (c : Coordinator) {a : Address} {path : String}
    (hpath : a.nodePath = .ok path) :
    m.publish c a = c.put m.session path (some a.text) true := by
  simp only [publish, hpath]

/-- An address is published by a put of its text at its path, or not at all. -/
theorem publish_cases (c : Coordinator) (a : Address) :
    (∃ path, a.nodePath = .ok path ∧ c.sessions[m.session]? = some .connected ∧
      m.publish c a = (.ok (), (c.put m.session path (some a.text) true).2)) ∨
    ∃ f, m.publish c a = (.error f, c) := by
  cases hpath : a.nodePath with
  | error f =>
    refine .inr ⟨f, ?_⟩
    simp only [publish, hpath]
  | ok path =>
    rw [m.publish_of_ok c hpath]
    rcases c.put_cases m.session path (some a.text) true with ⟨hs, hput⟩ | ⟨-, f, hput⟩
    · exact .inl ⟨path, rfl, hs, by rw [hput]⟩
    · exact .inr ⟨f, hput⟩

/-- An address is registered by a put of its text at its path, or not at all. -/
theorem register_cases (c : Coordinator) (cache : Cache) (a : Address) :
    (∃ path, a.nodePath = .ok path ∧ c.sessions[m.session]? = some .connected ∧
      m.register c cache a = (.ok (), { m with registered := addAddress m.registered a },
        (c.put m.session path (some a.text) true).2, (cache.insert a.serviceKey a).2)) ∨
    ∃ f, m.register c cache a = (.error f, m, c, cache) := by
  unfold register
  rcases m.publish_cases c a with ⟨path, hpath, hs, hp⟩ | ⟨f, hp⟩
  · exact .inl ⟨path, hpath, hs, by rw [hp]⟩
  · exact .inr ⟨f, by rw [hp]⟩

/-- An address is taken back by the deletion of the nodes at its path and below it, or not at
all. -/
theorem unregister_cases (c : Coordinator) (cache : Cache) (a : Address) :
    (∃ path, a.nodePath = .ok path ∧ c.sessions[m.session]? = some .connected ∧
      m.unregister c cache a = (.ok (), { m with registered := removeAddress m.registered a },
        (c.delete m.session path).2, (cache.remove a.serviceKey a).2)) ∨
    ∃ f, m.unregister c cache a = (.error f, m, c, cache) := by
  unfold unregister withdraw
  cases hpath : a.nodePath with
  | error f => exact .inr ⟨f, rfl⟩
  | ok path =>
    rcases c.delete_cases m.session path with ⟨hs, removed, hd⟩ | ⟨-, f, hd⟩
    · exact .inl ⟨path, rfl, hs, by simp only [hd]⟩
    · exact .inr ⟨f, by simp only [hd]⟩

/-- A connected session registers an address that has a path. -/
theorem register_of_nodePath {c : Coordinator} (cache : Cache) {a : Address} {path : String}
    (hpath : a.nodePath = .ok path) (hs : c.sessionState? m.session = some .connected) :
    m.register c cache a = (.ok (), { m with registered := addAddress m.registered a },
      (c.put m.session path (some a.text) true).2, (cache.insert a.serviceKey a).2) := by
  rw [register, m.publish_of_ok c hpath]
  rcases c.put_cases m.session path (some a.text) true with ⟨-, hput⟩ | ⟨hne, -⟩
  · rw [hput]
  · exact absurd hs hne

/-- A connected session takes back an address that has a path. -/
theorem unregister_of_nodePath {c : Coordinator} (cache : Cache) {a : Address} {path : String}
    (hpath : a.nodePath = .ok path) (hs : c.sessionState? m.session = some .connected) :
    m.unregister c cache a = (.ok (), { m with registered := removeAddress m.registered a },
      (c.delete m.session path).2, (cache.remove a.serviceKey a).2) := by
  rw [unregister, withdraw, hpath]
  rcases c.delete_cases m.session path with ⟨-, removed, hdelete⟩ | ⟨hne, -⟩
  · simp only [hdelete]
  · exact absurd hs hne

/-- Publishing an address is a put by the session, or nothing. -/
theorem publish_induction {P : Coordinator → Prop}
    (hput : ∀ c path data, P c → P (c.put m.session path data true).2) (a : Address)
    {c : Coordinator} (h : P c) : P (m.publish c a).2 := by
  cases hpath : a.nodePath with
  | error f =>
    simp only [publish, hpath]
    exact h
  | ok path =>
    rw [m.publish_of_ok c hpath]
    exact hput c path _ h

/-- Addresses are registered once more one after the other. -/
theorem republish_cons (c : Coordinator) (a : Address) (rest : List Address) :
    (m.republish c (a :: rest)).1 = (m.republish (m.publish c a).2 rest).1 := rfl

/-- Registering addresses once more consists of puts by the session. -/
theorem republish_induction {P : Coordinator → Prop}
    (hput : ∀ c path data, P c → P (c.put m.session path data true).2) (addresses : List Address)
    {c : Coordinator} (h : P c) : P (m.republish c addresses).1 := by
  induction addresses generalizing c with
  | nil => exact h
  | cons a rest ih =>
    rw [republish_cons]
    exact ih (m.publish_induction hput a h)

/-- Taking everything back consists of deletions by the session. -/
theorem withdrawAll_induction {P : Coordinator → Prop}
    (hdelete : ∀ c path, P c → P (c.delete m.session path).2) {c : Coordinator} (h : P c) :
    P (m.withdrawAll c).2 := by
  have hone : ∀ (c : Coordinator) (a : Address), P c → P (m.withdraw c a).2 := by
    intro c a h
    unfold withdraw
    cases a.nodePath with
    | error f => exact h
    | ok path => exact hdelete c path h
  change P (m.registered.foldl (fun c a => (m.withdraw c a).2) c)
  induction m.registered generalizing c with
  | nil => exact h
  | cons a rest ih => exact ih (hone c a h)

/-- Registering addresses once more opens no session. -/
theorem sessions_republish (c : Coordinator) (addresses : List Address) :
    (m.republish c addresses).1.sessions = c.sessions :=
  m.republish_induction (P := fun c' => c'.sessions = c.sessions)
    (fun _ _ _ h => (Coordinator.sessions_put ..).trans h) addresses rfl

/-- Taking everything back opens no session. -/
theorem sessions_withdrawAll (c : Coordinator) : (m.withdrawAll c).2.sessions = c.sessions :=
  m.withdrawAll_induction (P := fun c' => c'.sessions = c.sessions)
    (fun _ _ h => (Coordinator.sessions_delete ..).trans h) rfl

/-- A session that registers addresses once more keeps the nodes that it owns. -/
theorem owns_republish_of_owns (addresses : List Address) {c : Coordinator} {path : String}
    (h : c.Owns m.session path) : (m.republish c addresses).1.Owns m.session path :=
  m.republish_induction (P := fun c => c.Owns m.session path)
    (fun _ _ _ h => Coordinator.owns_put_of_owns h) addresses h

/-- A connected session owns everything that it registers once more. -/
theorem owns_republish {addresses : List Address} {c : Coordinator}
    (hs : c.sessions[m.session]? = some .connected) {a : Address} (ha : a ∈ addresses)
    {path : String} (hpath : a.nodePath = .ok path) :
    (m.republish c addresses).1.Owns m.session path := by
  induction addresses generalizing c with
  | nil => cases ha
  | cons b rest ih =>
    rw [republish_cons]
    rcases List.mem_cons.mp ha with heq | hrest
    · apply m.owns_republish_of_owns rest
      rw [← heq, m.publish_of_ok c hpath]
      exact Coordinator.owns_put_self (Coordinator.put_eq_ok hs)
    · refine ih ?_ hrest
      apply m.publish_induction (P := fun c => c.sessions[m.session]? = some .connected) _ b hs
      intro c path data hs
      rw [Coordinator.sessions_put]
      exact hs

/-- A session that is not connected registers nothing. -/
theorem republish_of_not_connected (addresses : List Address) {c : Coordinator}
    (hs : c.sessions[m.session]? ≠ some .connected) : (m.republish c addresses).1 = c := by
  apply m.republish_induction (P := fun c' => c' = c) _ addresses rfl
  intro c' path data hc
  subst hc
  rcases c'.put_cases m.session path data true with ⟨hc, -⟩ | ⟨-, f, hput⟩
  · exact absurd hc hs
  · rw [hput]

/-- One address is added at a time. -/
theorem mem_addAddress {addresses : List Address} {a b : Address}
    (h : b ∈ addAddress addresses a) : b ∈ addresses ∨ b = a := by
  unfold addAddress at h
  split at h
  · exact .inl h
  · simpa using h

/-- Adding an address drops none. -/
theorem mem_addAddress_of_mem {addresses : List Address} {b : Address} (h : b ∈ addresses)
    (a : Address) : b ∈ addAddress addresses a := by
  unfold addAddress
  split
  · exact h
  · exact List.mem_append_left _ h

/-- What is added is there, itself or an address that equals it. -/
theorem exists_mem_addAddress (addresses : List Address) (a : Address) :
    ∃ b, b ∈ addAddress addresses a ∧ (b == a) = true := by
  unfold addAddress
  split
  · next h => exact List.any_eq_true.mp h
  · exact ⟨a, by simp, Address.beq_self a⟩

end Membership

end Switchboard
