import Switchboard.Address.Key

/-!
# Equality of addresses

Equal addresses agree in every part, and give every parameter the same value, in whatever order the
parameters come. They are registered under the same path.
-/

namespace Switchboard

namespace Parameters

/-- The value that stands beside a key is the value of the key. -/
theorem get?_of_mem {p : Parameters} {key value : String} (h : (key, value) ∈ p.entries) :
    p.get? key = some value := by
  unfold get?
  have hnodup := p.nodup_keys
  generalize p.entries = entries at h hnodup
  induction entries with
  | nil => cases h
  | cons e rest ih =>
    rw [List.map_cons, List.nodup_cons] at hnodup
    rcases List.mem_cons.mp h with rfl | h
    · rw [List.lookup_cons_self]
    · have hne : (key == e.1) = false := by
        rw [beq_eq_false_iff_ne]
        rintro rfl
        exact hnodup.1 (List.mem_map.mpr ⟨_, h, rfl⟩)
      rw [List.lookup_cons, hne]
      exact ih h hnodup.2

/-- A key with a value stands beside it. -/
theorem mem_of_get? {p : Parameters} {key value : String} (h : p.get? key = some value) :
    (key, value) ∈ p.entries := by
  obtain ⟨before, after, heq, -⟩ := List.lookup_eq_some_iff.mp h
  rw [heq]
  simp

private theorem mem_keys_iff {p : Parameters} {key : String} :
    key ∈ p.keys ↔ (p.get? key).isSome := by
  simp only [keys, List.mem_map, Option.isSome_iff_exists]
  constructor
  · rintro ⟨⟨_, value⟩, hentry, rfl⟩
    exact ⟨value, get?_of_mem hentry⟩
  · rintro ⟨value, hvalue⟩
    exact ⟨_, mem_of_get? hvalue, rfl⟩

/-- Two lists of parameters are the same just if they give every key the same value. -/
theorem same_iff {p q : Parameters} : p.same q = true ↔ ∀ key, p.get? key = q.get? key := by
  have hlength : ∀ r : Parameters, r.entries.length = r.keys.length := fun r => by simp [keys]
  simp only [same, Bool.and_eq_true, beq_iff_eq, List.all_eq_true]
  constructor
  · rintro ⟨hsize, hall⟩ key
    cases hp : p.get? key with
    | some value => exact (hall _ (mem_of_get? hp)).symm
    | none =>
      cases hq : q.get? key with
      | none => rfl
      | some value =>
        -- the keys of `p` and the key that only `q` has are too many for `q`
        exfalso
        have hnew : key ∉ p.keys := fun hm => by simp [mem_keys_iff, hp] at hm
        have hsub : key :: p.keys ⊆ q.keys := by
          intro k hk
          rcases List.mem_cons.mp hk with rfl | hk
          · simp [mem_keys_iff, hq]
          · obtain ⟨v, hv⟩ := Option.isSome_iff_exists.mp (mem_keys_iff.mp hk)
            simp [mem_keys_iff, hall _ (mem_of_get? hv)]
        have hle := (List.nodup_cons.mpr ⟨hnew, p.nodup_keys⟩).length_le_of_subset hsub
        rw [List.length_cons, ← hlength, ← hlength, hsize] at hle
        exact Nat.lt_irrefl _ hle
  · intro hget
    constructor
    · rw [hlength, hlength]
      refine ((List.perm_ext_iff_of_nodup p.nodup_keys q.nodup_keys).mpr fun key => ?_).length_eq
      change key ∈ p.keys ↔ key ∈ q.keys
      rw [mem_keys_iff, mem_keys_iff, hget]
    · intro entry hentry
      rw [← hget, get?_of_mem hentry]

private theorem same_refl (p : Parameters) : p.same p = true := same_iff.mpr fun _ => rfl

end Parameters

namespace Address

/-- Equal addresses agree in every part, their parameters in any order. -/
theorem beq_iff {a b : Address} : (a == b) = true ↔
    a.port = b.port ∧ a.protocol = b.protocol ∧ a.username = b.username ∧
      a.password = b.password ∧ a.host = b.host ∧ a.path = b.path ∧
      a.parameters.same b.parameters = true := by
  change same a b = true ↔ _
  simp only [same, Bool.and_eq_true, beq_iff_eq, and_assoc]

/-- An address equals itself. -/
theorem beq_self (a : Address) : (a == a) = true :=
  beq_iff.mpr ⟨rfl, rfl, rfl, rfl, rfl, rfl, a.parameters.same_refl⟩

/-- Of equal addresses either equals the other. -/
theorem beq_symm {a b : Address} (h : (a == b) = true) : (b == a) = true := by
  obtain ⟨hport, hprotocol, husername, hpassword, hhost, hpath, hsame⟩ := beq_iff.mp h
  exact beq_iff.mpr ⟨hport.symm, hprotocol.symm, husername.symm, hpassword.symm, hhost.symm,
    hpath.symm, Parameters.same_iff.mpr fun key => (Parameters.same_iff.mp hsame key).symm⟩

/-- Addresses that equal one address equal each other. -/
theorem beq_trans {a b c : Address} (h : (a == b) = true) (h' : (b == c) = true) :
    (a == c) = true := by
  obtain ⟨hport, hprotocol, husername, hpassword, hhost, hpath, hsame⟩ := beq_iff.mp h
  obtain ⟨hport', hprotocol', husername', hpassword', hhost', hpath', hsame'⟩ := beq_iff.mp h'
  exact beq_iff.mpr ⟨hport.trans hport', hprotocol.trans hprotocol', husername.trans husername',
    hpassword.trans hpassword', hhost.trans hhost', hpath.trans hpath',
    Parameters.same_iff.mpr fun key =>
      (Parameters.same_iff.mp hsame key).trans (Parameters.same_iff.mp hsame' key)⟩

/-! ### Where equal addresses are registered -/

/-- Whether an address is registered at a path. -/
def isAt (a : Address) (path : String) : Bool := a.nodePath.toOption == some path

/-- An address is at a path if that is the path of its node. -/
theorem isAt_iff {a : Address} {path : String} : a.isAt path = true ↔ a.nodePath = .ok path := by
  unfold isAt
  cases a.nodePath <;> simp [Except.toOption]

/-- Equal addresses are at the same paths. -/
theorem isAt_congr {a b : Address} (h : (a == b) = true) (path : String) :
    a.isAt path = b.isAt path := by
  obtain ⟨-, -, -, -, -, hpath, hsame⟩ := beq_iff.mp h
  have hnode : a.parameter? nodeName = b.parameter? nodeName :=
    Parameters.same_iff.mp hsame nodeName
  have hkey : a.serviceKey = b.serviceKey := by simp only [serviceKey, hpath]
  simp only [isAt, nodePath, registrationNode, hnode, hkey]
  cases b.parameter? nodeName with
  | none => rfl
  | some node =>
    simp only
    split <;> rfl

end Address

end Switchboard
